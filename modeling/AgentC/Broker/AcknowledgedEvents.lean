import AgentC.Broker.TeamRunUpdates

/-! # Acknowledged events of a team run

Every request stores the whole payload as it read it, with its own change. An
event that was acknowledged is there until as many later ones were stored as
there may be, or until a request stores a payload from before the event. -/

namespace AgentC.Broker.TeamRuns

open Json

/-! ## Events in a payload -/

def eventsOf (kind : EventKind) (payload : Tree) : List Tree :=
  objects ((teamMetaOf payload).bind fun teamMeta => teamMeta.member kind.key)

def Adds : Option (EventKind × Tree) → Tree → Tree → Prop
  | none, held, payload => ∀ kind, eventsOf kind payload = eventsOf kind held
  | some (added, entry), held, payload =>
    entry.isObject = true ∧
      eventsOf added payload = keepLast added.maxEvents (eventsOf added held ++ [entry]) ∧
      ∀ kind, kind ≠ added → eventsOf kind payload = eventsOf kind held

section Payloads

variable {payload teamMeta changed entry : Tree} {kind : EventKind}

theorem teamMetaOf_withTeamMeta (inside : payload.isObject = true)
    (object : teamMeta.isObject = true) :
    teamMetaOf (withTeamMeta payload teamMeta) = some teamMeta :=
  Tree.objectMember_setMember inside object

theorem isObject_teamMetaOrEmpty : (teamMetaOrEmpty payload).isObject = true := by
  rw [teamMetaOrEmpty]
  cases found : teamMetaOf payload with
  | none => rfl
  | some teamMeta => exact (Tree.isObject_of_objectMember found).2

theorem eventsOf_eq_teamMetaOrEmpty :
    eventsOf kind payload = objects ((teamMetaOrEmpty payload).member kind.key) := by
  rw [eventsOf, teamMetaOrEmpty]
  cases teamMetaOf payload with
  | none => rfl
  | some teamMeta => rfl

theorem eventsOf_withTeamMeta (inside : payload.isObject = true)
    (object : teamMeta.isObject = true) :
    eventsOf kind (withTeamMeta payload teamMeta) = objects (teamMeta.member kind.key) := by
  rw [eventsOf, teamMetaOf_withTeamMeta inside object, Option.bind_some]

theorem adds_none (inside : payload.isObject = true) (object : changed.isObject = true)
    (kept : ∀ kind : EventKind, changed.member kind.key =
      (teamMetaOrEmpty payload).member kind.key) :
    Adds none payload (withTeamMeta payload changed) := by
  intro kind
  rw [eventsOf_withTeamMeta inside object, eventsOf_eq_teamMetaOrEmpty, kept kind]

/-- The metadata with an event appended. -/
structure Appends (kind : EventKind) (entry teamMeta changed : Tree) : Prop where
  entryObject : entry.isObject = true
  object : changed.isObject = true
  events : objects (changed.member kind.key) =
    keepLast kind.maxEvents (objects (teamMeta.member kind.key) ++ [entry])
  others : ∀ key, key ≠ kind.key → changed.member key = teamMeta.member key

theorem objects_appended (key : Bytes) (limit : Nat) (entryObject : entry.isObject = true)
    (object : teamMeta.isObject = true) : objects ((teamMeta.setMember key
        (.array (keepLast limit (objects (teamMeta.member key) ++ [entry])))).member key) =
      keepLast limit (objects (teamMeta.member key) ++ [entry]) := by
  rw [Tree.member_setMember object]
  apply List.filter_eq_self.mpr
  intro event member
  rcases List.mem_append.mp (List.mem_of_mem_drop member) with old | new
  · exact isObject_of_mem_objects old
  · rw [List.mem_singleton.mp new]
    exact entryObject

theorem appends_setMember (entryObject : entry.isObject = true)
    (object : teamMeta.isObject = true) :
    Appends kind entry teamMeta (teamMeta.setMember kind.key
      (.array (keepLast kind.maxEvents (objects (teamMeta.member kind.key) ++ [entry])))) where
  entryObject := entryObject
  object := Tree.isObject_setMember.trans object
  events := objects_appended kind.key kind.maxEvents entryObject object
  others _ different := Tree.member_setMember_of_ne different

theorem storedEvents_eq {events : List Tree} (stored : storedEvents kind teamMeta = .ok events) :
    events = objects (teamMeta.member kind.key) := by
  rw [storedEvents] at stored
  split at stored
  · next missing =>
    cases stored
    rw [missing]
    rfl
  · next blank =>
    cases stored
    rw [blank]
    rfl
  · next items found =>
    cases stored
    rw [found]
    rfl
  · cases stored

theorem appendGoalEvent_appends {event : GoalEvent} {now : Int} (object : teamMeta.isObject = true)
    (appended : appendGoalEvent teamMeta event now = .ok (entry, changed)) :
    Appends .goal entry teamMeta changed := by
  rw [appendGoalEvent] at appended
  split at appended
  · cases appended
  · cases stored : storedEvents .goal teamMeta with
    | error message =>
      rw [stored] at appended
      cases appended
    | ok events =>
      rw [stored] at appended
      cases appended
      rw [storedEvents_eq stored]
      exact appends_setMember (Tree.isObject_ofMembers _) object

theorem appendHandoffEvent_appends {letters : LowerCase} {event : HandoffEvent} {now : Int}
    {newId : Bytes} (object : teamMeta.isObject = true)
    (appended : appendHandoffEvent letters teamMeta event now newId = .ok (entry, changed)) :
    Appends .handoff entry teamMeta changed := by
  rw [appendHandoffEvent] at appended
  cases stored : storedEvents .handoff teamMeta with
  | error message =>
    rw [stored] at appended
    cases appended
  | ok events =>
    simp only [stored, bind, Except.bind] at appended
    split at appended
    · cases appended
    · split at appended
      · cases appended
      · cases appended
        rw [storedEvents_eq stored]
        exact appends_setMember (Tree.isObject_ofMembers _) object

theorem adds_some {base : Tree} (inside : payload.isObject = true)
    (kept : ∀ kind : EventKind, base.member kind.key = (teamMetaOrEmpty payload).member kind.key)
    (appends : Appends kind entry base changed) {key : Bytes} {value : Tree}
    (different : ∀ kind : EventKind, kind.key ≠ key) :
    Adds (some (kind, entry)) payload (withTeamMeta payload (changed.setMember key value)) := by
  have object : (changed.setMember key value).isObject = true :=
    Tree.isObject_setMember.trans appends.object
  have members : ∀ kind : EventKind,
      (changed.setMember key value).member kind.key = changed.member kind.key := by
    intro kind
    exact Tree.member_setMember_of_ne (different kind)
  refine ⟨appends.entryObject, ?_, ?_⟩
  · rw [eventsOf_withTeamMeta inside object, members kind, appends.events, kept kind,
      ← eventsOf_eq_teamMetaOrEmpty]
  · intro other distinct
    have keys : other.key ≠ kind.key := by
      cases other <;> cases kind <;> first | exact absurd rfl distinct | decide
    rw [eventsOf_withTeamMeta inside object, members other, appends.others other.key keys,
      kept other, ← eventsOf_eq_teamMetaOrEmpty]

end Payloads

/-! ## What a request has read and stored -/

structure Role where
  held : Option Tree := none
  stored : Option (EventKind × Tree) := none

def Role.advance (role : Role) : (call : Call) → Response call → Role
  | .get, some run => { role with held := some (TeamRun.payload run) }
  | .updatePayload payload event, true => { held := some payload, stored := event }
  | _, _ => role

def Role.Allows (role : Role) : Call → Prop
  | .updatePayload payload event => ∃ held, role.held = some held ∧ Adds event held payload
  | .reply (.ok (some event)) => role.stored = some event
  | _ => True

def description : Description Role Call Response where
  advance := Role.advance
  allowed := Role.Allows

variable {role : Role}

theorem answerWith_follows {reply : Reply} (allowed : role.Allows (.reply reply)) :
    (answerWith reply).Follows description (fun _ _ => True) role :=
  Program.follows_call allowed fun _ => trivial

theorem follows_unless {refused : Prop} [Decidable refused] {reply : Reply}
    {rest : TeamProgram Unit} (allowed : role.Allows (.reply reply))
    (follows : ¬refused → rest.Follows description (fun _ _ => True) role) :
    (if refused then answerWith reply else rest).Follows description (fun _ _ => True) role :=
  Program.follows_ite (fun _ => answerWith_follows allowed) follows

theorem storeAndAnswer_follows {held payload : Tree} {event : Option (EventKind × Tree)}
    (holds : role.held = some held) (adds : Adds event held payload) :
    (storeAndAnswer payload event).Follows description (fun _ _ => True) role := by
  refine Program.follows_call ⟨held, holds, adds⟩ fun stored => ?_
  cases stored with
  | false => exact answerWith_follows trivial
  | true =>
    cases event with
    | none => exact answerWith_follows trivial
    | some event => exact answerWith_follows rfl

section Handlers

variable {letters : LowerCase} {int64 : Int64Of}

theorem withContract_kept {contract : Option Tree} {nowMs : Int} {teamMeta : Tree} :
    (withContract contract nowMs teamMeta).isObject = teamMeta.isObject ∧
      ∀ kind : EventKind, (withContract contract nowMs teamMeta).member kind.key =
        teamMeta.member kind.key := by
  cases contract with
  | none => exact ⟨rfl, fun _ => rfl⟩
  | some contract =>
    refine ⟨Tree.isObject_setMember.trans Tree.isObject_setMember, fun kind => ?_⟩
    have updated : kind.key ≠ ascii "goal_updated_unix_ms" := by cases kind <;> decide
    have stated : kind.key ≠ ascii "goal_contract" := by cases kind <;> decide
    rw [withContract, Tree.member_setMember_of_ne updated, Tree.member_setMember_of_ne stated]

theorem handleTeamRunGoalUpdate_follows (contract : Option (Option Tree))
    (event : Option GoalEvent) :
    (handleTeamRunGoalUpdate contract event).Follows description (fun _ _ => True) {} := by
  refine Program.follows_call trivial fun found => ?_
  cases found with
  | none => exact answerWith_follows trivial
  | some run =>
    refine follows_unless trivial fun _ => follows_unless trivial fun object => ?_
    have inside : (TeamRun.payload run).isObject = true := not_not.mp object
    refine Program.follows_call trivial fun nowMs => ?_
    have kept := @withContract_kept (contract.getD none) nowMs
      (teamMetaOrEmpty (TeamRun.payload run))
    have changed := kept.1.trans isObject_teamMetaOrEmpty
    cases event with
    | none => exact storeAndAnswer_follows rfl (adds_none inside changed kept.2)
    | some event =>
      refine Program.follows_call trivial fun now => ?_
      split
      · exact answerWith_follows trivial
      · next entry teamMeta appended =>
        apply storeAndAnswer_follows rfl
        apply adds_some inside kept.2 (appendGoalEvent_appends changed appended)
        intro kind
        cases kind <;> decide

theorem handleTeamRunHandoffUpdate_follows (event : HandoffEvent) :
    (handleTeamRunHandoffUpdate letters event).Follows description (fun _ _ => True) {} := by
  refine Program.follows_call trivial fun found => ?_
  cases found with
  | none => exact answerWith_follows trivial
  | some run =>
    refine follows_unless trivial fun object => ?_
    have inside : (TeamRun.payload run).isObject = true := not_not.mp object
    refine Program.follows_call trivial fun newId => ?_
    refine Program.follows_call trivial fun now => ?_
    split
    · exact answerWith_follows trivial
    · next entry teamMeta appended =>
      refine Program.follows_call trivial fun nowMs => ?_
      apply storeAndAnswer_follows rfl
      apply adds_some inside (fun _ => rfl)
        (appendHandoffEvent_appends isObject_teamMetaOrEmpty appended)
      intro kind
      cases kind <;> decide

theorem reconcileTeamRunJobs_kept {answers : Nat → JobAnswer} {status : Bytes}
    {teamMeta changed : Tree}
    (reconciled : (reconcileTeamRunJobs letters int64 answers status teamMeta).2 = some changed) :
    changed.isObject = teamMeta.isObject ∧
      ∀ kind : EventKind, changed.member kind.key = teamMeta.member kind.key := by
  rw [reconcileTeamRunJobs] at reconciled
  split at reconciled
  · cases reconciled
  · simp only at reconciled
    split at reconciled
    · cases reconciled
      refine ⟨Tree.isObject_setMember, fun kind => ?_⟩
      apply Tree.member_setMember_of_ne
      cases kind <;> decide
    · cases reconciled

theorem teamRunStatusResponse_follows {run : TeamRun} (holds : role.held = some run.payload) :
    (teamRunStatusResponse letters int64 run).Follows description (fun _ _ => True) role := by
  rw [teamRunStatusResponse]
  cases found : teamMetaOf run.payload with
  | none => exact answerWith_follows trivial
  | some teamMeta =>
    refine follows_unless trivial fun _ => ?_
    refine Program.follows_call trivial fun answers => ?_
    have answered : ∀ role : Role, (if (reconcileTeamRunJobs letters int64 answers run.status
        teamMeta).1 = run.status then answerWith (.ok none)
      else Program.request (Call.updateStatus (reconcileTeamRunJobs letters int64 answers
        run.status teamMeta).1) >>= fun _ => answerWith (.ok none)).Follows description
          (fun _ _ => True) role := by
      intro role
      exact follows_unless trivial fun _ =>
        Program.follows_call trivial fun _ => answerWith_follows trivial
    apply Program.follows_bind
    cases changed : (reconcileTeamRunJobs letters int64 answers run.status teamMeta).2 with
    | none => exact answered role
    | some updated =>
      have objects := Tree.isObject_of_objectMember found
      have kept := reconcileTeamRunJobs_kept changed
      have same : teamMetaOrEmpty run.payload = teamMeta := by
        rw [teamMetaOrEmpty, found]
        rfl
      have adds : Adds none run.payload (withTeamMeta run.payload updated) := by
        apply adds_none objects.1 (kept.1.trans objects.2)
        rw [same]
        exact kept.2
      exact Program.follows_call ⟨_, holds, adds⟩ fun _ => answered _

theorem withRuntimeMembers_kept {built : RuntimeMembers} {nowMs : Int} {teamMeta : Tree} :
    (withRuntimeMembers built nowMs teamMeta).isObject = teamMeta.isObject ∧
      ∀ kind : EventKind, (withRuntimeMembers built nowMs teamMeta).member kind.key =
        teamMeta.member kind.key := by
  have sessions : ∀ kind : EventKind, kind.key ≠ ascii "member_sessions" := by
    intro kind
    cases kind <;> decide
  have members : ∀ kind : EventKind, kind.key ≠ ascii "runtime_members" := by
    intro kind
    cases kind <;> decide
  have updated : ∀ kind : EventKind, kind.key ≠ ascii "runtime_members_updated_unix_ms" := by
    intro kind
    cases kind <;> decide
  simp only [withRuntimeMembers]
  cases built.sessions <;> cases built.members
  · refine ⟨Tree.isObject_setMember.trans Tree.isObject_removeMember, fun kind => ?_⟩
    rw [Tree.member_setMember_of_ne (updated kind), Tree.member_removeMember_of_ne (members kind)]
  · refine ⟨Tree.isObject_setMember.trans Tree.isObject_setMember, fun kind => ?_⟩
    rw [Tree.member_setMember_of_ne (updated kind), Tree.member_setMember_of_ne (members kind)]
  · refine ⟨Tree.isObject_setMember.trans
      (Tree.isObject_removeMember.trans Tree.isObject_setMember), fun kind => ?_⟩
    rw [Tree.member_setMember_of_ne (updated kind), Tree.member_removeMember_of_ne (members kind),
      Tree.member_setMember_of_ne (sessions kind)]
  · refine ⟨Tree.isObject_setMember.trans
      (Tree.isObject_setMember.trans Tree.isObject_setMember), fun kind => ?_⟩
    rw [Tree.member_setMember_of_ne (updated kind), Tree.member_setMember_of_ne (members kind),
      Tree.member_setMember_of_ne (sessions kind)]

theorem handleTeamRunRuntimeMembersUpdate_follows (build : Tree → Except Bytes RuntimeMembers) :
    (handleTeamRunRuntimeMembersUpdate letters int64 build).Follows description (fun _ _ => True)
      {} := by
  refine Program.follows_call trivial fun found => ?_
  cases found with
  | none => exact answerWith_follows trivial
  | some run =>
    refine follows_unless trivial fun object => ?_
    have inside : (TeamRun.payload run).isObject = true := not_not.mp object
    split
    · exact answerWith_follows trivial
    · next built _ =>
      refine Program.follows_call trivial fun nowMs => ?_
      have kept := @withRuntimeMembers_kept built nowMs (teamMetaOrEmpty (TeamRun.payload run))
      have adds := adds_none inside (kept.1.trans isObject_teamMetaOrEmpty) kept.2
      refine Program.follows_call ⟨_, rfl, adds⟩ fun stored => ?_
      cases stored with
      | false => exact answerWith_follows trivial
      | true => exact teamRunStatusResponse_follows rfl

theorem withCancelResults_kept {results : List Tree} {nowMs : Int} {teamMeta : Tree} :
    (withCancelResults results nowMs teamMeta).isObject = teamMeta.isObject ∧
      ∀ kind : EventKind, (withCancelResults results nowMs teamMeta).member kind.key =
        teamMeta.member kind.key := by
  refine ⟨Tree.isObject_setMember.trans Tree.isObject_setMember, fun kind => ?_⟩
  have requested : kind.key ≠ ascii "cancel_requested_unix_ms" := by cases kind <;> decide
  have answered : kind.key ≠ ascii "cancel_results" := by cases kind <;> decide
  rw [withCancelResults, Tree.member_setMember_of_ne answered,
    Tree.member_setMember_of_ne requested]

theorem handleTeamRunCancel_follows :
    (handleTeamRunCancel letters int64).Follows description (fun _ _ => True) {} := by
  refine Program.follows_call trivial fun found => ?_
  cases found with
  | none => exact answerWith_follows trivial
  | some run =>
    refine follows_unless trivial fun object => ?_
    have inside : (TeamRun.payload run).isObject = true := not_not.mp object
    refine follows_unless trivial fun _ => follows_unless trivial fun _ => ?_
    refine Program.follows_call trivial fun nowMs => ?_
    refine Program.follows_call trivial fun results => ?_
    have kept := @withCancelResults_kept results nowMs (teamMetaOrEmpty (TeamRun.payload run))
    have adds := adds_none inside (kept.1.trans isObject_teamMetaOrEmpty) kept.2
    refine Program.follows_call ⟨_, rfl, adds⟩ fun stored => ?_
    cases stored with
    | false => exact answerWith_follows trivial
    | true =>
      apply Program.follows_ite
      · intro _
        refine Program.follows_call trivial fun marked => ?_
        cases marked with
        | true => exact teamRunStatusResponse_follows rfl
        | false => exact teamRunStatusResponse_follows rfl
      · exact fun _ => teamRunStatusResponse_follows rfl

theorem program_follows (operation : Operation) :
    (program letters int64 operation).Follows description (fun _ _ => True) {} := by
  cases operation with
  | goal contract event => exact handleTeamRunGoalUpdate_follows contract event
  | handoff event => exact handleTeamRunHandoffUpdate_follows event
  | runtimeMembers build => exact handleTeamRunRuntimeMembersUpdate_follows build
  | cancel => exact handleTeamRunCancel_follows
  | status =>
    refine Program.follows_call trivial fun found => ?_
    cases found with
    | none => exact answerWith_follows trivial
    | some run => exact teamRunStatusResponse_follows rfl

end Handlers

/-! ## Stored events -/

def Stores (kind : EventKind) (entry : Tree) : TeamEvent → Prop
  | ⟨_, .updatePayload _ event, stored, _, _⟩ => event = some (kind, entry) ∧ stored = true
  | _ => False

def storesKind (kind : EventKind) : TeamEvent → Bool
  | ⟨_, .updatePayload _ (some (added, _)), stored, _, _⟩ => added = kind && stored
  | _ => false

/-- The request has the payload as it is stored: it read it or stored it. -/
def Refreshes : TeamEvent → Prop
  | ⟨_, .get, found, _, _⟩ => found ≠ none
  | ⟨_, .updatePayload .., stored, _, _⟩ => stored = true
  | _ => False

def StoresPayload : TeamEvent → Prop
  | ⟨_, .updatePayload .., stored, _, _⟩ => stored = true
  | _ => False

/-- After an event, a request stores a payload that it had before the event. -/
def Overwritten (update : TeamEvent) (later : List TeamEvent) : Prop :=
  ∃ recent write older, later = recent ++ write :: older ∧ StoresPayload write ∧
    ∀ event ∈ older ++ [update], event.thread = write.thread → ¬Refreshes event

def Present (kind : EventKind) (entry payload : Tree) : Prop :=
  entry ∈ eventsOf kind payload

/-- The event is there with at most so many behind it. -/
def Within (kind : EventKind) (entry : Tree) (behind : Nat) (payload : Tree) : Prop :=
  ∃ front back, eventsOf kind payload = front ++ entry :: back ∧ back.length ≤ behind

section Survival

variable {kind : EventKind} {entry held payload : Tree} {behind : Nat}

theorem Within.mono {more : Nat} (within : Within kind entry behind payload)
    (grows : behind ≤ more) : Within kind entry more payload := by
  rcases within with ⟨front, back, events, bound⟩
  exact ⟨front, back, events, bound.trans grows⟩

theorem keepLast_append {limit : Nat} {front back : List Tree} (short : back.length < limit) :
    ∃ kept, keepLast limit (front ++ entry :: back) = kept ++ entry :: back := by
  rw [keepLast, List.drop_append_of_le_length]
  · exact ⟨_, rfl⟩
  · simp only [List.length_append, List.length_cons]
    omega

theorem within_of_adds {event : Option (EventKind × Tree)} {more : Nat}
    (adds : Adds event held payload) (within : Within kind entry behind held)
    (grows : behind ≤ more) (counted : ∀ added, event = some (kind, added) → behind < more)
    (room : more < kind.maxEvents) : Within kind entry more payload := by
  rcases within with ⟨front, back, events, bound⟩
  have same : eventsOf kind payload = eventsOf kind held → Within kind entry more payload := by
    intro unchanged
    exact ⟨front, back, unchanged.trans events, bound.trans grows⟩
  cases event with
  | none => exact same (adds kind)
  | some added =>
    rcases added with ⟨other, new⟩
    rcases adds with ⟨_, appended, others⟩
    by_cases here : kind = other
    · subst here
      have longer := counted new rfl
      have short : (back ++ [new]).length < kind.maxEvents := by
        rw [List.length_append, List.length_singleton]
        omega
      rcases @keepLast_append entry _ front _ short with ⟨kept, trimmed⟩
      refine ⟨kept, back ++ [new], ?_, ?_⟩
      · rw [appended, events, List.append_assoc, List.cons_append, trimmed]
      · rw [List.length_append, List.length_singleton]
        omega
    · exact same (others kind here)

end Survival

/-! ## Runs -/

abbrev roleOf (thread : Nat) (events : List TeamEvent) : Role :=
  SharedStore.known description {} thread events

/-- What holds after an event was stored: it is in the stored payload, and in
that of every request that has read or stored since. -/
def Kept (kind : EventKind) (entry : Tree) (update : TeamEvent) (later earlier : List TeamEvent)
    (store : TeamRun) : Prop :=
  Within kind entry (later.countP (storesKind kind)) store.payload ∧
    ∀ thread, (∃ event ∈ later ++ [update], event.thread = thread ∧ Refreshes event) →
      ∃ held, (roleOf thread (later ++ update :: earlier)).held = some held ∧
        Within kind entry (later.countP (storesKind kind)) held

section Steps

variable {kind : EventKind} {entry : Tree} {update event : TeamEvent}
  {later earlier : List TeamEvent} {store next : TeamRun}

theorem kept_quiet (kept : Kept kind entry update later earlier store)
    (payload : next.payload = store.payload) (quiet : ¬Refreshes event)
    (counted : storesKind kind event = false)
    (learns : ∀ role : Role, role.advance event.call event.response = role) :
    Kept kind entry update (event :: later) earlier next := by
  have same : (event :: later).countP (storesKind kind) = later.countP (storesKind kind) := by
    rw [List.countP_cons, counted]
    rfl
  refine ⟨?_, ?_⟩
  · rw [same, payload]
    exact kept.1
  · rintro thread ⟨refreshed, member, own, refreshes⟩
    have role : roleOf thread (event :: later ++ update :: earlier) =
        roleOf thread (later ++ update :: earlier) := by
      rw [List.cons_append, roleOf, SharedStore.known]
      split
      · exact learns _
      · rfl
    rw [same, role]
    rcases List.mem_cons.mp member with here | before
    · rw [here] at refreshes
      exact absurd refreshes quiet
    · exact kept.2 thread ⟨refreshed, before, own, refreshes⟩

theorem kept_refresh {held : Tree}
    (kept : Within kind entry ((event :: later).countP (storesKind kind)) next.payload)
    (others : ∀ thread, (∃ refreshed ∈ later ++ [update], refreshed.thread = thread ∧
      Refreshes refreshed) → ∃ held, (roleOf thread (later ++ update :: earlier)).held = some held ∧
        Within kind entry (later.countP (storesKind kind)) held)
    (holds : ∀ role : Role, (role.advance event.call event.response).held = some held)
    (stored : held = next.payload) : Kept kind entry update (event :: later) earlier next := by
  refine ⟨kept, ?_⟩
  rintro thread ⟨refreshed, member, own, refreshes⟩
  rw [List.cons_append, roleOf, SharedStore.known]
  split
  · exact ⟨held, holds _, stored ▸ kept⟩
  · next different =>
    rcases List.mem_cons.mp member with here | before
    · rw [here] at own
      exact absurd own different
    · rcases others thread ⟨refreshed, before, own, refreshes⟩ with ⟨held, holds, within⟩
      refine ⟨held, holds, within.mono ?_⟩
      rw [List.countP_cons]
      exact Nat.le_add_right ..

end Steps

section Survival

variable {letters : LowerCase} {int64 : Int64Of} {kind : EventKind} {entry : Tree}
  {update : TeamEvent} {earlier : List TeamEvent} {first store : TeamRun}

theorem kept_stored
    (trace : SharedStore.Trace (system letters int64) description {} first (update :: earlier) store)
    (stores : Stores kind entry update) : Kept kind entry update [] earlier store := by
  cases trace with
  | @cons _ before _ thread call response _ allowed effect =>
    cases call with
    | updatePayload payload event =>
      rcases stores with ⟨rfl, rfl⟩
      rcases allowed with ⟨held, _, adds⟩
      have result : store = before.storePayload true payload := effect
      have within : Within kind entry 0 payload := by
        have room : ([] : List Tree).length < kind.maxEvents := by cases kind <;> decide
        rcases @keepLast_append entry _ (eventsOf kind held) _ room with ⟨kept, trimmed⟩
        exact ⟨kept, [], adds.2.1.trans trimmed, Nat.le_refl 0⟩
      rw [result]
      refine ⟨within, ?_⟩
      rintro other ⟨refreshed, member, own, _⟩
      rw [List.mem_singleton.mp member] at own
      have same : thread = other := own
      refine ⟨payload, ?_, within⟩
      rw [List.nil_append, roleOf, SharedStore.known, if_pos same]
      rfl
    | _ => cases stores

theorem kept_updatePayload {later : List TeamEvent} {thread : Nat} {payload : Tree}
    {added : Option (EventKind × Tree)} {before : TeamRun}
    (allowed : (roleOf thread (later ++ update :: earlier)).Allows (.updatePayload payload added))
    (kept : Kept kind entry update later earlier before) :
    let event : TeamEvent :=
      ⟨thread, .updatePayload payload added, true, before, before.storePayload true payload⟩
    kind.maxEvents ≤ (event :: later).countP (storesKind kind) ∨
      Overwritten update (event :: later) ∨
      Kept kind entry update (event :: later) earlier event.after := by
  intro event
  by_cases fresh : ∃ refreshed ∈ later ++ [update], refreshed.thread = thread ∧ Refreshes refreshed
  · rcases allowed with ⟨held, holds, adds⟩
    rcases kept.2 thread fresh with ⟨known, same, within⟩
    rw [holds] at same
    cases same
    by_cases room : (event :: later).countP (storesKind kind) < kind.maxEvents
    · refine .inr (.inr (kept_refresh ?_ kept.2 (fun _ => rfl) rfl))
      apply within_of_adds adds within _ _ room
      · rw [List.countP_cons]
        exact Nat.le_add_right ..
      · rintro new rfl
        have counts : storesKind kind event = true := by simp [event, storesKind]
        rw [List.countP_cons, counts]
        exact Nat.lt_succ_self _
    · exact .inl (Nat.le_of_not_lt room)
  · refine .inr (.inl ⟨[], event, later, rfl, rfl, ?_⟩)
    intro refreshed member own refreshes
    exact fresh ⟨refreshed, member, own, refreshes⟩

theorem kept_since {later : List TeamEvent}
    (trace : SharedStore.Trace (system letters int64) description {} first
      (later ++ update :: earlier) store) (stores : Stores kind entry update) :
    kind.maxEvents ≤ later.countP (storesKind kind) ∨ Overwritten update later ∨
      Kept kind entry update later earlier store := by
  induction later generalizing store with
  | nil => exact .inr (.inr (kept_stored trace stores))
  | cons event later induction =>
    rw [List.cons_append] at trace
    cases trace with
    | @cons _ before _ thread call response past allowed effect =>
      rcases induction past with many | overwritten | kept
      · left
        rw [List.countP_cons]
        omega
      · rcases overwritten with ⟨recent, write, older, rfl, writes, stale⟩
        exact .inr (.inl ⟨_ :: recent, write, older, rfl, writes, stale⟩)
      · have quiet : store = before → ¬Refreshes ⟨thread, call, response, before, store⟩ →
            storesKind kind ⟨thread, call, response, before, store⟩ = false →
            (∀ role : Role, role.advance call response = role) →
              Kept kind entry update (⟨thread, call, response, before, store⟩ :: later) earlier
                store := by
          intro same
          exact kept_quiet kept (congrArg TeamRun.payload same)
        cases call with
        | get =>
          rcases effect with ⟨rfl, missing | found⟩
          · cases missing
            exact .inr (.inr (quiet rfl (fun refreshes => refreshes rfl) rfl fun _ => rfl))
          · cases found
            exact .inr (.inr (kept_refresh kept.1 kept.2 (fun _ => rfl) rfl))
        | updatePayload payload added =>
          have result : store = before.storePayload response payload := effect
          cases response with
          | false =>
            refine .inr (.inr (quiet result nofun ?_ fun _ => rfl))
            rcases added with _ | ⟨other, new⟩
            · rfl
            · exact Bool.and_false _
          | true =>
            rw [result]
            exact kept_updatePayload allowed kept
        | updateStatus status =>
          have result : store = before.storeStatus response status := effect
          have payload : store.payload = before.payload := by
            rw [result]
            cases response <;> rfl
          exact .inr (.inr (kept_quiet kept payload id rfl fun _ => rfl))
        | now => exact .inr (.inr (quiet effect id rfl fun _ => rfl))
        | newId => exact .inr (.inr (quiet effect id rfl fun _ => rfl))
        | ask => exact .inr (.inr (quiet effect id rfl fun _ => rfl))
        | cancelJobs => exact .inr (.inr (quiet effect id rfl fun _ => rfl))
        | reply reply => exact .inr (.inr (quiet effect id rfl fun _ => rfl))

end Survival

def HasStored (own : List TeamEvent) (role : Role) : Prop :=
  ∀ kind entry, role.stored = some (kind, entry) → ∃ event ∈ own, Stores kind entry event

theorem hasStored_idle : HasStored [] {} := by
  intro kind entry same
  cases same

theorem hasStored_advance {own : List TeamEvent} {event : TeamEvent} (stored : HasStored own role) :
    HasStored (event :: own) (role.advance event.call event.response) := by
  have older : HasStored (event :: own) role := by
    intro kind entry same
    rcases stored kind entry same with ⟨update, member, stores⟩
    exact ⟨update, List.mem_cons_of_mem event member, stores⟩
  rcases event with ⟨thread, call, response, before, after⟩
  cases call with
  | get =>
    cases response with
    | none => exact older
    | some run => exact older
  | updatePayload =>
    cases response with
    | false => exact older
    | true =>
      intro kind entry same
      exact ⟨_, List.mem_cons_self .., same, rfl⟩
  | _ => exact older

/-- An event that was acknowledged is in the stored payload, unless as many
events of its kind were stored since as there may be, or a request stored a
payload that it had before. -/
theorem acknowledged_events_kept (letters : LowerCase) (int64 : Int64Of) (first : TeamRun)
    (events : List TeamEvent) (state : SystemState TeamRun Operation Call Response)
    (run : (system letters int64).Run { store := first } events state) :
    ∀ answered ∈ events, ∀ kind entry, answered.call = .reply (.ok (some (kind, entry))) →
      ∃ later update earlier, events = later ++ update :: earlier ∧
        update.thread = answered.thread ∧ Stores kind entry update ∧
          (Present kind entry state.store.payload ∨
            kind.maxEvents ≤ later.countP (storesKind kind) ∨ Overwritten update later) := by
  intro answered member kind entry acknowledged
  have trace := SharedStore.Run.trace (system letters int64) program_follows run
  rcases List.append_of_mem member with ⟨recent, past, split⟩
  rw [split] at trace
  rcases SharedStore.Trace.earlier _ trace with ⟨after, upTo⟩
  cases upTo with
  | @cons _ before _ thread call response older allowed effect =>
    have call : call = .reply (.ok (some (kind, entry))) := acknowledged
    subst call
    have own := SharedStore.Trace.own (system letters int64) HasStored hasStored_idle
      (fun stored _ => hasStored_advance stored) older thread
    rcases own kind entry allowed with ⟨update, there, stores⟩
    have inside := SharedStore.mem_eventsOf.mp there
    have among : update ∈ events := by
      rw [split]
      exact List.mem_append_right _ (List.mem_cons_of_mem _ inside.1)
    rcases List.append_of_mem among with ⟨later, earlier, parts⟩
    refine ⟨later, update, earlier, parts, inside.2, stores, ?_⟩
    rw [← split, parts] at trace
    rcases kept_since trace stores with many | overwritten | kept
    · exact .inr (.inl many)
    · exact .inr (.inr overwritten)
    · left
      rcases kept.1 with ⟨front, back, found, _⟩
      rw [Present, found]
      exact List.mem_append_right _ (List.mem_cons_self ..)

/-! ## Two updates of a goal -/

def emptyRun : TeamRun where
  status := ascii "running"
  payload := .object [(ascii "team", .object [])]

def progress (message : Bytes) : Operation :=
  .goal none (some { type := ascii "progress", message })

def sampleUpdates (schedule : List (SharedStore.Move Operation Choice)) :
    List TeamEvent × SystemState TeamRun Operation Call Response :=
  schedule.foldl ((system .asciiOnly fun _ => 0).record answer) ([], { store := emptyRun })

theorem run_sampleUpdates (schedule : List (SharedStore.Move Operation Choice)) :
    (system .asciiOnly fun _ => 0).Run { store := emptyRun } (sampleUpdates schedule).1
      (sampleUpdates schedule).2 :=
  SharedStore.run_records _ (effect_answer _ _) .refl _

def rest (thread : Nat) : List (SharedStore.Move Operation Choice) :=
  List.replicate 4 (.advance thread {})

def sampleEntry (message : Bytes) : Tree :=
  goalEntry { type := ascii "progress", message } 0 []

/-- Two updates read the run before either is stored. -/
def crossedUpdates : List (SharedStore.Move Operation Choice) :=
  [.start (progress (ascii "a")), .advance 0 {}, .start (progress (ascii "b")), .advance 1 {}] ++
    rest 0 ++ rest 1

/-- The event of the first is lost. -/
theorem acknowledged_event_lost :
    ¬∀ (letters : LowerCase) (int64 : Int64Of) (first : TeamRun) (events : List TeamEvent)
      (state : SystemState TeamRun Operation Call Response),
      (system letters int64).Run { store := first } events state →
        ∀ answered ∈ events, ∀ kind entry, answered.call = .reply (.ok (some (kind, entry))) →
          ∃ later update earlier, events = later ++ update :: earlier ∧
            update.thread = answered.thread ∧ Stores kind entry update ∧
              (Present kind entry state.store.payload ∨
                kind.maxEvents < later.countP (storesKind kind)) := by
  intro kept
  have run := run_sampleUpdates crossedUpdates
  rcases kept _ _ _ _ _ run _ (List.mem_of_getElem? (i := 4) rfl) .goal (sampleEntry (ascii "a")) rfl
    with ⟨later, update, earlier, parts, _, _, present | many⟩
  · have only : sampleEntry (ascii "a") ∈ [sampleEntry (ascii "b")] := present
    have message := congrArg (fun entry => Tree.text entry (ascii "message"))
      (List.mem_singleton.mp only)
    exact absurd message (by decide)
  · have counted := congrArg (List.countP (storesKind .goal)) parts
    rw [List.countP_append] at counted
    have two : List.countP (storesKind .goal) (sampleUpdates crossedUpdates).1 = 2 := rfl
    have limit : EventKind.goal.maxEvents = 200 := rfl
    omega

def singleUpdate : List (SharedStore.Move Operation Choice) :=
  [.start (progress (ascii "a")), .advance 0 {}] ++ rest 0

theorem acknowledged_events_kept_sample :
    ∃ later update earlier, (sampleUpdates singleUpdate).1 = later ++ update :: earlier ∧
      update.thread = 0 ∧ Stores .goal (sampleEntry (ascii "a")) update ∧
        (Present .goal (sampleEntry (ascii "a")) (sampleUpdates singleUpdate).2.store.payload ∨
          EventKind.goal.maxEvents ≤ later.countP (storesKind .goal) ∨
            Overwritten update later) := by
  have run := run_sampleUpdates singleUpdate
  have kept := acknowledged_events_kept _ _ _ _ _ run _ (List.mem_of_getElem? (i := 0) rfl) .goal
    (sampleEntry (ascii "a")) rfl
  exact kept

end AgentC.Broker.TeamRuns

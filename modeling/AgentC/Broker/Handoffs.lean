import AgentC.Broker.EventIndices
import AgentC.Foundation.Fallible

/-! # Follow-ups of handoffs

`parseHandoffEvent` of `broker/internal/broker/team_run_helpers.go`, and what a
follow-up that only names its handoff becomes when it is appended. -/

namespace AgentC.Broker.TeamRuns

open Json

namespace HandoffKey

def handoffId : Bytes := ascii "handoff_id"
def kind : Bytes := ascii "kind"
def state : Bytes := ascii "state"
def fromRole : Bytes := ascii "from_role"
def toRole : Bytes := ascii "to_role"
def reason : Bytes := ascii "reason"
def message : Bytes := ascii "message"
def data : Bytes := ascii "data"
def tsUnixMs : Bytes := ascii "ts_unix_ms"

/-- The deployments and sessions of a handoff. -/
def endpoints : List Bytes :=
  [ascii "source_deployment_id", ascii "source_session_id", ascii "target_deployment_id",
    ascii "target_session_id"]

end HandoffKey

def handoffError (key problem : Bytes) : Bytes :=
  ascii "handoff event " ++ key ++ ascii " must be " ++ problem

def stringMember (object : Tree) (key : Bytes) : Except Bytes Bytes :=
  match object.member key with
  | none => .ok []
  | some (.string text) => .ok (trimSpace text)
  | some _ => .error (handoffError key (ascii "string"))

def optionalStringField (object : Tree) (key : Bytes) : Except Bytes Bytes :=
  match object.member key with
  | none | some .null => .ok []
  | some (.string text) => .ok (trimSpace text)
  | some _ => .error (handoffError key (ascii "string"))

def handoffData (object : Tree) : Except Bytes (Option Tree) :=
  match object.member HandoffKey.data with
  | none | some .null => .ok none
  | some (.object members) => .ok (some (.object members))
  | some _ => .error (handoffError HandoffKey.data (ascii "object"))

def handoffTime (int64 : Int64Of) (object : Tree) : Except Bytes Int :=
  match object.member HandoffKey.tsUnixMs with
  | none => .ok 0
  | some (.number token) => .ok (int64 token)
  | some _ => .error (handoffError HandoffKey.tsUnixMs (ascii "integer"))

def roleKind : Bytes := ascii "role"

def crossKind : Bytes := ascii "cross_deployment"

/-- The kind of a handoff that names none: it has endpoints or it has not. -/
def defaultKind (object : Tree) : Bytes :=
  if HandoffKey.endpoints.any fun key => object.text key ≠ [] then crossKind else roleKind

def handoffStates : List Bytes :=
  [ascii "proposed", ascii "accepted", ascii "declined", ascii "cancelled"]

variable (letters : LowerCase) (int64 : Int64Of)

def normalText (text : Bytes) : Bytes :=
  letters.lower (trimSpace text)

def parseHandoffEvent (raw : Tree) : Except Bytes HandoffEvent :=
  match raw with
  | .null => .error (ascii "handoff event required")
  | .object members => do
    let object := Tree.object members
    let handoffId ← stringMember object HandoffKey.handoffId
    let kind := letters.lower (← stringMember object HandoffKey.kind)
    let state := letters.lower (← stringMember object HandoffKey.state)
    let fromRole := normalText letters (object.text HandoffKey.fromRole)
    let toRole := normalText letters (object.text HandoffKey.toRole)
    let kind := orElseText kind (defaultKind object)
    if kind ≠ roleKind ∧ kind ≠ crossKind then
      .error (ascii "handoff event kind must be role or cross_deployment")
    else
      let state := orElseText state (ascii "proposed")
      if state ∉ handoffStates then
        .error (ascii
          "handoff event state must be proposed, accepted, declined, or cancelled")
      else if handoffId = [] ∧ (fromRole = [] ∨ toRole = []) then
        .error (ascii "handoff event requires from_role and to_role")
      else
        let reason ← stringMember object HandoffKey.reason
        let message ← stringMember object HandoffKey.message
        let data ← handoffData object
        let sourceDeploymentId ← optionalStringField object (ascii "source_deployment_id")
        let sourceSessionId ← optionalStringField object (ascii "source_session_id")
        let targetDeploymentId ← optionalStringField object (ascii "target_deployment_id")
        let targetSessionId ← optionalStringField object (ascii "target_session_id")
        let tsUnixMs ← handoffTime int64 object
        .ok { handoffId, kind, state, fromRole, toRole, reason, message, sourceDeploymentId,
              sourceSessionId, targetDeploymentId, targetSessionId, data, tsUnixMs }
  | _ => .error (ascii "handoff event must be object")

def appendParsed (maxEvents : Int) (teamMeta raw : Tree) (now : Int) (newId : Bytes) :
    Except Bytes (Tree × Tree) := do
  let event ← parseHandoffEvent letters int64 raw
  appendHandoffEventUpTo letters maxEvents teamMeta event now newId

def inheritedKeys : List Bytes :=
  HandoffKey.kind :: HandoffKey.fromRole :: HandoffKey.toRole :: HandoffKey.endpoints

/-- An object that names a handoff and leaves out what it can take from it. -/
structure FollowUp (raw : Tree) (handoffId : Bytes) : Prop where
  object : raw.isObject = true
  names : ∃ text, raw.member HandoffKey.handoffId = some (.string text) ∧
    trimSpace text = handoffId
  given : handoffId ≠ []
  omits : ∀ key ∈ inheritedKeys, raw.member key = none

def latestEvent (events : List Tree) (handoffId : Bytes) : Option Tree :=
  events.reverse.find? fun event => trimSpace (event.text HandoffKey.handoffId) = handoffId

def IsText (raw : Tree) (key : Bytes) : Prop :=
  raw.member key = none ∨ ∃ text, raw.member key = some (.string text)

/-- The other members of a follow-up are of the forms that events may have. -/
structure Accepted (raw : Tree) : Prop where
  state : IsText raw HandoffKey.state
  stateKnown : ∀ text, raw.member HandoffKey.state = some (.string text) →
    normalText letters text = [] ∨ normalText letters text ∈ handoffStates
  reason : IsText raw HandoffKey.reason
  message : IsText raw HandoffKey.message
  data : ∀ value, raw.member HandoffKey.data = some value → value = .null ∨ value.isObject = true
  time : ∀ value, raw.member HandoffKey.tsUnixMs = some value → ∃ token, value = .number token

section Parsing

variable {letters int64} {raw : Tree} {handoffId : Bytes}

theorem lower_nil (letters : LowerCase) : letters.lower [] = [] :=
  letters.ascii [] nofun

theorem stringMember_eq_ok_iff {key : Bytes} :
    (∃ text, stringMember raw key = .ok text) ↔ IsText raw key := by
  rw [stringMember, IsText]
  constructor
  · rintro ⟨text, read⟩
    split at read
    · next missing => exact .inl missing
    · next found => exact .inr ⟨_, found⟩
    · cases read
  · rintro (missing | ⟨text, found⟩)
    · exact ⟨[], by rw [missing]⟩
    · exact ⟨trimSpace text, by rw [found]⟩

theorem stateKnown_iff : (∃ state, stringMember raw HandoffKey.state = .ok state ∧
      orElseText (letters.lower state) (ascii "proposed") ∈ handoffStates) ↔
      IsText raw HandoffKey.state ∧ ∀ text, raw.member HandoffKey.state = some (.string text) →
        normalText letters text = [] ∨ normalText letters text ∈ handoffStates := by
  have known : ∀ text, orElseText text (ascii "proposed") ∈ handoffStates ↔
      text = [] ∨ text ∈ handoffStates := by
    intro text
    rw [orElseText]
    split
    · next empty => exact ⟨fun _ => .inl empty, fun _ => List.mem_cons_self ..⟩
    · next given => exact ⟨.inr, fun either => either.resolve_left given⟩
  constructor
  · rintro ⟨state, read, valid⟩
    refine ⟨stringMember_eq_ok_iff.mp ⟨state, read⟩, fun text found => ?_⟩
    rw [stringMember, found] at read
    cases read
    exact (known _).mp valid
  · rintro ⟨missing | ⟨text, found⟩, valid⟩
    · refine ⟨[], by rw [stringMember, missing], ?_⟩
      rw [lower_nil]
      exact (known []).mpr (.inl rfl)
    · exact ⟨trimSpace text, by rw [stringMember, found], (known _).mpr (valid text found)⟩

theorem handoffData_eq_ok_iff : (∃ data, handoffData raw = .ok data) ↔
      ∀ value, raw.member HandoffKey.data = some value → value = .null ∨ value.isObject = true := by
  rw [handoffData]
  cases raw.member HandoffKey.data with
  | none => exact ⟨fun _ => nofun, fun _ => ⟨none, rfl⟩⟩
  | some value =>
    cases value with
    | null => exact ⟨fun _ _ same => .inl (Option.some.inj same).symm, fun _ => ⟨none, rfl⟩⟩
    | object members =>
      refine ⟨fun _ _ same => .inr ?_, fun _ => ⟨_, rfl⟩⟩
      rw [← Option.some.inj same]
      rfl
    | _ =>
      refine ⟨fun read => ?_, fun valid => ?_⟩
      · rcases read with ⟨data, read⟩
        cases read
      · rcases valid _ rfl with null | object
        · cases null
        · cases object

theorem handoffTime_eq_ok_iff : (∃ time, handoffTime int64 raw = .ok time) ↔
      ∀ value, raw.member HandoffKey.tsUnixMs = some value → ∃ token, value = .number token := by
  rw [handoffTime]
  cases raw.member HandoffKey.tsUnixMs with
  | none => exact ⟨fun _ => nofun, fun _ => ⟨0, rfl⟩⟩
  | some value =>
    cases value with
    | number token => exact ⟨fun _ _ same => ⟨token, (Option.some.inj same).symm⟩, fun _ => ⟨_, rfl⟩⟩
    | _ =>
      refine ⟨fun read => ?_, fun valid => ?_⟩
      · rcases read with ⟨time, read⟩
        cases read
      · rcases valid _ rfl with ⟨token, same⟩
        cases same

/-- What the parser makes of a follow-up: its kind is set, the rest is left open. -/
structure OpenEvent (handoffId : Bytes) (event : HandoffEvent) : Prop where
  handoffId : event.handoffId = handoffId
  kind : event.kind = roleKind
  fromRole : event.fromRole = []
  toRole : event.toRole = []
  sourceDeploymentId : event.sourceDeploymentId = []
  sourceSessionId : event.sourceSessionId = []
  targetDeploymentId : event.targetDeploymentId = []
  targetSessionId : event.targetSessionId = []

theorem parse_followUp (followUp : FollowUp raw handoffId) :
    parseHandoffEvent letters int64 raw = (do
      let state ← stringMember raw HandoffKey.state
      if orElseText (letters.lower state) (ascii "proposed") ∉ handoffStates then
        .error (ascii "handoff event state must be proposed, accepted, declined, or cancelled")
      else
        let reason ← stringMember raw HandoffKey.reason
        let message ← stringMember raw HandoffKey.message
        let data ← handoffData raw
        let tsUnixMs ← handoffTime int64 raw
        .ok {
          handoffId
          kind := roleKind
          state := orElseText (letters.lower state) (ascii "proposed")
          reason, message, data, tsUnixMs }) := by
  cases raw with
  | object members =>
    rcases followUp.names with ⟨text, found, trimmed⟩
    have id : stringMember (.object members) HandoffKey.handoffId = .ok handoffId := by
      rw [stringMember, found, ← trimmed]
    have omitted : ∀ key ∈ inheritedKeys, (Tree.object members).text key = [] := by
      intro key member
      rw [Tree.text, followUp.omits key member]
    have kind : stringMember (.object members) HandoffKey.kind = .ok [] := by
      rw [stringMember, followUp.omits _ (by decide)]
    have role : defaultKind (.object members) = roleKind := by
      rw [defaultKind, if_neg]
      simp only [List.any_eq_true, decide_eq_true_eq, not_exists, not_and, not_not]
      intro key member
      exact omitted key (List.mem_cons_of_mem _ (List.mem_cons_of_mem _
        (List.mem_cons_of_mem _ member)))
    have endpoint : ∀ key ∈ HandoffKey.endpoints,
        optionalStringField (.object members) key = .ok [] := by
      intro key member
      rw [optionalStringField, followUp.omits key (List.mem_cons_of_mem _
        (List.mem_cons_of_mem _ (List.mem_cons_of_mem _ member)))]
    have blank : normalText letters [] = [] := lower_nil letters
    have default : orElseText [] roleKind = roleKind := rfl
    rw [parseHandoffEvent]
    simp only [id, kind, role, omitted HandoffKey.fromRole (by decide),
      omitted HandoffKey.toRole (by decide), blank, lower_nil,
      endpoint (ascii "source_deployment_id") (by decide),
      endpoint (ascii "source_session_id") (by decide),
      endpoint (ascii "target_deployment_id") (by decide),
      endpoint (ascii "target_session_id") (by decide), bind, Except.bind, default,
      followUp.given, ne_eq, not_true_eq_false, false_and, if_false]
  | _ => exact nomatch followUp.object

theorem openEvent_of_parsed (followUp : FollowUp raw handoffId) {event : HandoffEvent}
    (parsed : parseHandoffEvent letters int64 raw = .ok event) :
    Accepted letters raw ∧ OpenEvent handoffId event := by
  rw [parse_followUp followUp, bind_eq_ok] at parsed
  rcases parsed with ⟨state, readState, parsed⟩
  split at parsed
  · cases parsed
  · next known =>
    simp only [bind_eq_ok] at parsed
    rcases parsed with ⟨reason, readReason, message, readMessage, data, readData, time, readTime,
      made⟩
    have states := stateKnown_iff.mp ⟨state, readState, not_not.mp known⟩
    cases made
    exact ⟨⟨states.1, states.2, stringMember_eq_ok_iff.mp ⟨reason, readReason⟩,
      stringMember_eq_ok_iff.mp ⟨message, readMessage⟩, handoffData_eq_ok_iff.mp ⟨data, readData⟩,
      handoffTime_eq_ok_iff.mp ⟨time, readTime⟩⟩, rfl, rfl, rfl, rfl, rfl, rfl, rfl, rfl⟩

theorem parsed_of_accepted (followUp : FollowUp raw handoffId) (accepted : Accepted letters raw) :
    ∃ event, parseHandoffEvent letters int64 raw = .ok event := by
  rcases stateKnown_iff.mpr ⟨accepted.state, accepted.stateKnown⟩ with ⟨state, readState, known⟩
  rcases stringMember_eq_ok_iff.mpr accepted.reason with ⟨reason, readReason⟩
  rcases stringMember_eq_ok_iff.mpr accepted.message with ⟨message, readMessage⟩
  rcases handoffData_eq_ok_iff.mpr accepted.data with ⟨data, readData⟩
  rcases (@handoffTime_eq_ok_iff int64 raw).mpr accepted.time with ⟨time, readTime⟩
  refine ⟨{
    handoffId
    kind := roleKind
    state := orElseText (letters.lower state) (ascii "proposed")
    reason, message, data
    tsUnixMs := time }, ?_⟩
  rw [parse_followUp followUp]
  simp only [readState, readReason, readMessage, readData, readTime, known, bind, Except.bind,
    not_true_eq_false, if_false]

end Parsing

section Entries

variable {front rest : List (Bytes × Tree)} {key value : Bytes}

theorem text_ofMembers (others : key ∉ rest.map Prod.fst) :
    (Tree.ofMembers (front ++ (key, .string value) :: rest)).text key = value := by
  rw [Tree.text, Tree.member_ofMembers front rest others]

theorem text_ofMembers_optionalText (before : key ∉ front.map Prod.fst)
    (behind : key ∉ rest.map Prod.fst) :
    (Tree.ofMembers (front ++ optionalText key value ++ rest)).text key = value := by
  rw [optionalText]
  split
  · next empty =>
    have absent : key ∉ (front ++ [] ++ rest).map Prod.fst := by
      rw [List.append_nil, List.map_append, List.mem_append]
      exact not_or.mpr ⟨before, behind⟩
    rw [Tree.text, Tree.ofMembers, Tree.member_foldl_setMember absent, empty]
    rfl
  · rw [List.append_assoc, List.singleton_append]
    exact text_ofMembers behind

end Entries

def HandoffEvent.inherited (event : HandoffEvent) : List Bytes :=
  [event.kind, event.fromRole, event.toRole, event.sourceDeploymentId, event.sourceSessionId,
    event.targetDeploymentId, event.targetSessionId]

section Texts

variable (event : HandoffEvent) (now : Int) (events : List Tree)

def commonMembers : List (Bytes × Tree) :=
  [(ascii "ts_unix_ms", number (eventTime event.tsUnixMs now)),
    (ascii "reason", .string event.reason), (ascii "message", .string event.message),
    (ascii "event_index", number (events.length + 1))]

def optionalMembers : List (Bytes × Tree) :=
  optionalText (ascii "source_deployment_id") event.sourceDeploymentId ++
    (optionalText (ascii "source_session_id") event.sourceSessionId ++
      (optionalText (ascii "target_deployment_id") event.targetDeploymentId ++
        (optionalText (ascii "target_session_id") event.targetSessionId ++
          optionalMember (ascii "data") event.data)))

def identifyingMembers : List (Bytes × Tree) :=
  [(ascii "handoff_id", .string event.handoffId), (ascii "kind", .string event.kind),
    (ascii "state", .string event.state), (ascii "from_role", .string event.fromRole),
    (ascii "to_role", .string event.toRole)]

theorem handoffEntry_eq : handoffEntry event now events = .ofMembers (identifyingMembers event ++
      commonMembers event now events ++ optionalMembers event) := by
  rw [handoffEntry, identifyingMembers, commonMembers, optionalMembers]
  simp only [List.append_assoc, List.cons_append, List.nil_append]

theorem text_handoffEntry {key value : Bytes} {front rest : List (Bytes × Tree)}
    (parts : identifyingMembers event ++ commonMembers event now events =
      front ++ (key, .string value) :: rest) (others : key ∉ rest.map Prod.fst)
    (noEndpoint : key ∉ HandoffKey.endpoints) (noData : key ≠ ascii "data") :
    (handoffEntry event now events).text key = value := by
  rw [handoffEntry_eq, parts, List.append_assoc, List.cons_append]
  apply text_ofMembers
  simp only [HandoffKey.endpoints, List.mem_cons, not_or] at noEndpoint
  simp only [optionalMembers, List.map_append, List.mem_append, not_or]
  exact ⟨others, optionalText_keys noEndpoint.1, optionalText_keys noEndpoint.2.1,
    optionalText_keys noEndpoint.2.2.1, optionalText_keys noEndpoint.2.2.2.1,
    optionalMember_keys event.data noData⟩

theorem text_handoffEntry_optional {key value : Bytes} {front rest : List (Bytes × Tree)}
    (parts : optionalMembers event = front ++ (optionalText key value ++ rest))
    (before : key ∉ front.map Prod.fst) (behind : key ∉ rest.map Prod.fst)
    (fresh : key ∉ [ascii "handoff_id", ascii "kind", ascii "state", ascii "from_role",
      ascii "to_role", ascii "ts_unix_ms", ascii "reason", ascii "message", ascii "event_index"]) :
    (handoffEntry event now events).text key = value := by
  rw [handoffEntry_eq, parts, ← List.append_assoc, ← List.append_assoc]
  apply text_ofMembers_optionalText
  · rw [List.map_append, List.mem_append]
    exact not_or.mpr ⟨fresh, before⟩
  · exact behind

theorem texts_handoffEntry :
    inheritedKeys.map (handoffEntry event now events).text = event.inherited := by
  have kind : (handoffEntry event now events).text HandoffKey.kind = event.kind := by
    apply @text_handoffEntry event now events _ _ [(ascii "handoff_id", .string event.handoffId)]
    · rfl
    · change _ ∉ [ascii "state", ascii "from_role", ascii "to_role", ascii "ts_unix_ms",
        ascii "reason", ascii "message", ascii "event_index"]
      decide
    · decide
    · decide
  have fromRole : (handoffEntry event now events).text HandoffKey.fromRole = event.fromRole := by
    apply @text_handoffEntry event now events _ _ [(ascii "handoff_id", .string event.handoffId),
      (ascii "kind", .string event.kind), (ascii "state", .string event.state)]
    · rfl
    · change _ ∉ [ascii "to_role", ascii "ts_unix_ms", ascii "reason", ascii "message",
        ascii "event_index"]
      decide
    · decide
    · decide
  have toRole : (handoffEntry event now events).text HandoffKey.toRole = event.toRole := by
    apply @text_handoffEntry event now events _ _ [(ascii "handoff_id", .string event.handoffId),
      (ascii "kind", .string event.kind), (ascii "state", .string event.state),
      (ascii "from_role", .string event.fromRole)]
    · rfl
    · change _ ∉ [ascii "ts_unix_ms", ascii "reason", ascii "message", ascii "event_index"]
      decide
    · decide
    · decide
  have sourceDeployment : (handoffEntry event now events).text (ascii "source_deployment_id") =
      event.sourceDeploymentId := by
    apply @text_handoffEntry_optional event now events _ _ []
    · rfl
    · exact nofun
    · simp only [List.map_append, List.mem_append, not_or]
      exact ⟨optionalText_keys (by decide), optionalText_keys (by decide),
        optionalText_keys (by decide), optionalMember_keys _ (by decide)⟩
    · decide
  have sourceSession : (handoffEntry event now events).text (ascii "source_session_id") =
      event.sourceSessionId := by
    apply @text_handoffEntry_optional event now events _ _
      (optionalText (ascii "source_deployment_id") event.sourceDeploymentId)
    · rfl
    · exact optionalText_keys (by decide)
    · simp only [List.map_append, List.mem_append, not_or]
      exact ⟨optionalText_keys (by decide), optionalText_keys (by decide),
        optionalMember_keys _ (by decide)⟩
    · decide
  have targetDeployment : (handoffEntry event now events).text (ascii "target_deployment_id") =
      event.targetDeploymentId := by
    apply @text_handoffEntry_optional event now events _ _
      (optionalText (ascii "source_deployment_id") event.sourceDeploymentId ++
        optionalText (ascii "source_session_id") event.sourceSessionId)
    · rw [optionalMembers, List.append_assoc]
    · simp only [List.map_append, List.mem_append, not_or]
      exact ⟨optionalText_keys (by decide), optionalText_keys (by decide)⟩
    · simp only [List.map_append, List.mem_append, not_or]
      exact ⟨optionalText_keys (by decide), optionalMember_keys _ (by decide)⟩
    · decide
  have targetSession : (handoffEntry event now events).text (ascii "target_session_id") =
      event.targetSessionId := by
    apply @text_handoffEntry_optional event now events _ _
      (optionalText (ascii "source_deployment_id") event.sourceDeploymentId ++
        (optionalText (ascii "source_session_id") event.sourceSessionId ++
          optionalText (ascii "target_deployment_id") event.targetDeploymentId))
    · rw [optionalMembers, List.append_assoc, List.append_assoc]
    · simp only [List.map_append, List.mem_append, not_or]
      exact ⟨optionalText_keys (by decide), optionalText_keys (by decide),
        optionalText_keys (by decide)⟩
    · exact optionalMember_keys _ (by decide)
    · decide
  rw [inheritedKeys, HandoffKey.endpoints, HandoffEvent.inherited]
  simp only [List.map_cons, List.map_nil, kind, fromRole, toRole, sourceDeployment, sourceSession,
    targetDeployment, targetSession]

end Texts

/-- What a follow-up inherits: the texts of the latest event as the code compares
them. -/
def inheritedTexts (letters : LowerCase) (previous : Tree) : List Bytes :=
  [roleKind, normalText letters (previous.text HandoffKey.fromRole),
    normalText letters (previous.text HandoffKey.toRole)] ++
    HandoffKey.endpoints.map fun key => trimSpace (previous.text key)

/-- An event that can be appended. -/
structure ValidHandoff (letters : LowerCase) (event : Tree) : Prop where
  kind : normalText letters (event.text HandoffKey.kind) ∈ [roleKind, crossKind]
  fromRole : normalText letters (event.text HandoffKey.fromRole) ≠ []
  toRole : normalText letters (event.text HandoffKey.toRole) ≠ []
  endpoints : normalText letters (event.text HandoffKey.kind) = crossKind →
    ∀ key ∈ HandoffKey.endpoints, trimSpace (event.text key) ≠ []

section Appending

variable {letters} {int64} {raw previous teamMeta : Tree} {handoffId : Bytes} {events : List Tree}

theorem fromPrevious_openEvent {event : HandoffEvent} (opened : OpenEvent handoffId event)
    (given : handoffId ≠ []) (latest : latestEvent events handoffId = some previous)
    (newId : Bytes) : (withDefaults newId (fromPrevious letters events event)).inherited =
      inheritedTexts letters previous ∧
      (withDefaults newId (fromPrevious letters events event)).kind = roleKind := by
  have found : (events.reverse.find? fun previous =>
      trimSpace (previous.text (ascii "handoff_id")) = event.handoffId) = some previous := by
    rw [opened.handoffId]
    exact latest
  have named : event.handoffId ≠ [] := by
    rw [opened.handoffId]
    exact given
  rw [fromPrevious, if_neg named, found]
  simp only [withDefaults, HandoffEvent.inherited, opened.kind, opened.fromRole, opened.toRole,
    opened.sourceDeploymentId, opened.sourceSessionId, opened.targetDeploymentId,
    opened.targetSessionId]
  exact ⟨rfl, rfl⟩

def NamesRoles (letters : LowerCase) (event : Tree) : Prop :=
  normalText letters (event.text HandoffKey.fromRole) ≠ [] ∧
    normalText letters (event.text HandoffKey.toRole) ≠ []

theorem texts_of_appendParsed {maxEvents now : Int} {newId : Bytes} {entry changed : Tree}
    (followUp : FollowUp raw handoffId) (stored : storedEvents .handoff teamMeta = .ok events)
    (latest : latestEvent events handoffId = some previous)
    (appended : appendParsed letters int64 maxEvents teamMeta raw now newId =
      .ok (entry, changed)) : Accepted letters raw ∧ NamesRoles letters previous ∧
      inheritedKeys.map entry.text = inheritedTexts letters previous := by
  rw [appendParsed, bind_eq_ok] at appended
  rcases appended with ⟨event, parsed, appended⟩
  rcases openEvent_of_parsed followUp parsed with ⟨accepted, opened⟩
  rcases fromPrevious_openEvent opened followUp.given latest newId with ⟨texts, -⟩
  rw [appendHandoffEventUpTo] at appended
  simp only [stored, bind, Except.bind] at appended
  split at appended
  · cases appended
  · next named =>
    split at appended
    · cases appended
    · cases appended
      refine ⟨accepted, ?_, (texts_handoffEntry _ now events).trans texts⟩
      simp only [HandoffEvent.inherited, inheritedTexts, List.cons_append, List.cons.injEq]
        at texts
      rw [texts.2.1, texts.2.2.1] at named
      exact not_or.mp named

theorem appendParsed_of_accepted {maxEvents now : Int} {newId : Bytes}
    (followUp : FollowUp raw handoffId) (stored : storedEvents .handoff teamMeta = .ok events)
    (latest : latestEvent events handoffId = some previous) (accepted : Accepted letters raw)
    (named : NamesRoles letters previous) :
    ∃ appended, appendParsed letters int64 maxEvents teamMeta raw now newId = .ok appended := by
  rcases @parsed_of_accepted letters int64 raw handoffId followUp accepted with ⟨event, parsed⟩
  have opened := (openEvent_of_parsed followUp parsed).2
  rcases fromPrevious_openEvent opened followUp.given latest newId with ⟨texts, kind⟩
  simp only [HandoffEvent.inherited, inheritedTexts, List.cons_append, List.cons.injEq] at texts
  rw [appendParsed, parsed]
  simp only [bind, Except.bind, appendHandoffEventUpTo, stored]
  rw [if_neg]
  · rw [if_neg]
    · exact ⟨_, rfl⟩
    · rw [kind]
      exact fun cross => absurd cross.1 (by decide)
  · rw [texts.2.1, texts.2.2.1]
    exact not_or.mpr named

end Appending

/-- The appended event is about the same roles, deployments and sessions. -/
def KeepsIdentity (previous entry : Tree) : Prop :=
  ∀ key ∈ inheritedKeys, entry.text key = previous.text key

/-- A handoff between roles, with its texts stored as the code compares them. -/
structure PlainRoleHandoff (letters : LowerCase) (event : Tree) : Prop where
  kind : event.text HandoffKey.kind = roleKind
  fromRole : event.text HandoffKey.fromRole = normalText letters (event.text HandoffKey.fromRole)
  toRole : event.text HandoffKey.toRole = normalText letters (event.text HandoffKey.toRole)
  endpoints : ∀ key ∈ HandoffKey.endpoints, event.text key = trimSpace (event.text key)

theorem plainRoleHandoff_iff {letters : LowerCase} {event : Tree} :
    inheritedTexts letters event = inheritedKeys.map event.text ↔
      PlainRoleHandoff letters event := by
  rw [inheritedTexts, inheritedKeys, List.cons_append, List.cons_append, List.cons_append,
    List.nil_append, List.map_cons, List.map_cons, List.map_cons, List.cons.injEq, List.cons.injEq,
    List.cons.injEq, List.map_inj_left]
  constructor
  · rintro ⟨kind, fromRole, toRole, endpoints⟩
    exact ⟨kind.symm, fromRole.symm, toRole.symm, fun key member => (endpoints key member).symm⟩
  · intro plain
    exact ⟨plain.kind.symm, plain.fromRole.symm, plain.toRole.symm,
      fun key member => (plain.endpoints key member).symm⟩

/-- A follow-up that names its handoff and nothing it can inherit keeps the
identity of the handoff, and is refused for no valid handoff, exactly if the
handoff is a plain one between roles or the follow-up has other faults. -/
theorem follow_up_keeps_handoff_iff {letters : LowerCase} {int64 : Int64Of}
    {raw previous teamMeta : Tree} {handoffId : Bytes} {events : List Tree}
    (followUp : FollowUp raw handoffId) (stored : storedEvents .handoff teamMeta = .ok events)
    (latest : latestEvent events handoffId = some previous) (maxEvents now : Int)
    (newId : Bytes) :
    ((∀ entry changed,
        appendParsed letters int64 maxEvents teamMeta raw now newId = .ok (entry, changed) →
          KeepsIdentity previous entry) ∧
      (ValidHandoff letters previous →
        ∃ appended, appendParsed letters int64 maxEvents teamMeta raw now newId =
          .ok appended)) ↔
      (Accepted letters raw → NamesRoles letters previous → PlainRoleHandoff letters previous) ∧
        (ValidHandoff letters previous → Accepted letters raw) := by
  constructor
  · rintro ⟨keeps, succeeds⟩
    constructor
    · intro accepted named
      rcases @appendParsed_of_accepted letters int64 raw previous teamMeta handoffId events maxEvents
        now newId followUp stored latest accepted named with ⟨⟨entry, changed⟩, appended⟩
      have texts := (texts_of_appendParsed followUp stored latest appended).2.2
      apply plainRoleHandoff_iff.mp
      rw [← texts]
      exact List.map_congr_left (keeps entry changed appended)
    · intro valid
      rcases succeeds valid with ⟨⟨entry, changed⟩, appended⟩
      exact (texts_of_appendParsed followUp stored latest appended).1
  · rintro ⟨plain, accepted⟩
    constructor
    · intro entry changed appended
      rcases texts_of_appendParsed followUp stored latest appended with ⟨accepted, named, texts⟩
      rw [plainRoleHandoff_iff.mpr (plain accepted named)] at texts
      exact List.map_inj_left.mp texts
    · intro valid
      exact appendParsed_of_accepted followUp stored latest (accepted valid)
        ⟨valid.fromRole, valid.toRole⟩

def sampleHandoff (kind : Bytes) (endpoints : List (Bytes × Tree)) : Tree :=
  .ofMembers ([(ascii "handoff_id", .string (ascii "th")), (ascii "kind", .string kind),
    (ascii "from_role", .string (ascii "planner")),
    (ascii "to_role", .string (ascii "executor"))] ++ endpoints)

def sampleEndpoints : List (Bytes × Tree) :=
  HandoffKey.endpoints.map fun key => (key, .string (ascii "x"))

def sampleHandoffs (handoff : Tree) : Tree :=
  .object [(EventKind.handoff.key, .array [handoff])]

def sampleFollowUp : Tree :=
  .object [(ascii "handoff_id", .string (ascii "th"))]

theorem followUp_sample : FollowUp sampleFollowUp (ascii "th") :=
  ⟨rfl, ⟨ascii "th", rfl, by decide⟩, by decide, by decide⟩

theorem accepted_sample : Accepted LowerCase.asciiOnly sampleFollowUp :=
  ⟨.inl rfl, nofun, .inl rfl, .inl rfl, nofun, nofun⟩

theorem follow_up_keeps_handoff_sample :
    (∀ entry changed, appendParsed LowerCase.asciiOnly (fun _ => 0) 0
        (sampleHandoffs (sampleHandoff roleKind [])) sampleFollowUp 5 [] = .ok (entry, changed) →
        KeepsIdentity (sampleHandoff roleKind []) entry) ∧
      (ValidHandoff LowerCase.asciiOnly (sampleHandoff roleKind []) →
        ∃ appended, appendParsed LowerCase.asciiOnly (fun _ => 0) 0
          (sampleHandoffs (sampleHandoff roleKind [])) sampleFollowUp 5 [] = .ok appended) :=
  (follow_up_keeps_handoff_iff followUp_sample rfl rfl 0 5 []).mpr
    ⟨fun _ _ => ⟨by decide, by decide, by decide, by decide⟩, fun _ => accepted_sample⟩

/-- A handoff between deployments becomes one between roles. -/
theorem follow_up_changes_kind :
    ∃ entry changed, appendParsed LowerCase.asciiOnly (fun _ => 0) 0
        (sampleHandoffs (sampleHandoff crossKind sampleEndpoints)) sampleFollowUp 5 [] =
          .ok (entry, changed) ∧
      entry.text HandoffKey.kind = roleKind ∧
      ¬KeepsIdentity (sampleHandoff crossKind sampleEndpoints) entry := by
  refine ⟨_, _, rfl, by decide, fun keeps => ?_⟩
  exact absurd (keeps HandoffKey.kind (by decide)) (by decide)

end AgentC.Broker.TeamRuns

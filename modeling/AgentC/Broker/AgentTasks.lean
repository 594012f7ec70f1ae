import AgentC.Broker.Idempotency

/-! # Tasks for agents

The tasks of `broker/internal/broker/agent_tasks.go`, the headers that
`executeAgentTasks` forwards with them and the row it makes of an answer. -/

namespace AgentC.Broker.AgentTasks

structure AgentTaskPrepared where
  taskId : Bytes
  agentId : Bytes
  deploymentId : Bytes
  method : Bytes
  path : Bytes
  query : Bytes
  headers : Headers
  body : Bytes
deriving DecidableEq, Repr

def userHeader : Bytes := ascii "X-Agentd-Broker-User"

def traceHeader : Bytes := ascii "X-Trace-ID"

/-- The names that are not forwarded, in lower case. -/
def withheldNames : List Bytes :=
  [ascii "authorization", ascii "host", ascii "connection"]

section Forwarding

variable (letters : LowerCase)

def forwards (name : Bytes) : Bool :=
  trimSpace name ≠ [] && !withheldNames.contains (letters.lower (trimSpace name))

def copyHeaders (headers forwarded : Headers) : Headers :=
  headers.foldl (fun forwarded entry =>
    if forwards letters entry.1 then forwarded.set entry.1 entry.2 else forwarded) forwarded

def forwardedHeaders (sub traceId : Bytes) (headers : Headers) : Headers :=
  let forwarded := (copyHeaders letters headers []).set userHeader sub
  if traceId ≠ [] ∧ traceHeader ∉ forwarded.map Prod.fst then forwarded.set traceHeader traceId
  else forwarded

end Forwarding

section Names

variable {letters : LowerCase} {headers forwarded : Headers} {name value : Bytes}

theorem mem_names_set {other : Bytes} : other ∈ (headers.set name value).map Prod.fst ↔
      other ∈ headers.map Prod.fst ∨ other = name := by
  by_cases same : other = name
  · simp [Headers.set, same]
  · simp [Headers.set, same]

theorem mem_names_copyHeaders : name ∈ (copyHeaders letters headers forwarded).map Prod.fst ↔
      name ∈ forwarded.map Prod.fst ∨
        (name ∈ headers.map Prod.fst ∧ forwards letters name = true) := by
  induction headers generalizing forwarded with
  | nil => simp [copyHeaders]
  | cons entry headers induction =>
    have next : copyHeaders letters (entry :: headers) forwarded =
        copyHeaders letters headers
          (if forwards letters entry.1 then forwarded.set entry.1 entry.2 else forwarded) := rfl
    rw [next, induction, List.map_cons, List.mem_cons]
    cases forwarding : forwards letters entry.1 with
    | false =>
      have others : ¬(name = entry.1 ∧ forwards letters name = true) := by
        rintro ⟨same, forwards⟩
        rw [same, forwarding] at forwards
        exact nomatch forwards
      simp [or_and_right, others]
    | true =>
      rw [if_pos rfl, mem_names_set, or_and_right, or_assoc]
      apply or_congr_right
      apply or_congr_left
      constructor
      · rintro same
        exact ⟨same, same ▸ forwarding⟩
      · rintro ⟨same, _⟩
        exact same

def SameName (letters : LowerCase) (given name : Bytes) : Prop :=
  letters.lower (trimSpace given) = letters.lower name

instance (given name : Bytes) : Decidable (SameName letters given name) :=
  inferInstanceAs (Decidable (_ = _))

theorem lt_of_all_lt {name : Bytes} (all : (name.all fun byte => byte < 128) = true) :
    ∀ byte ∈ name, byte < 128 := by
  simpa using all

theorem sameName_iff_of_ascii {given : Bytes} (plain : ∀ byte ∈ name, byte < 128) :
    SameName letters given name ↔ letters.lower (trimSpace given) = name.map lowerByte := by
  rw [SameName, letters.ascii name plain]

end Names

section User

variable {letters : LowerCase}

/-- The agent is told one user, and nothing is passed on in a withheld header. -/
structure UserKept (letters : LowerCase) (sub : Bytes) (forwarded : Headers) : Prop where
  user : ∃ name, forwarded.filter (fun entry => SameName letters entry.1 userHeader) =
    [(name, sub)]
  withheld : ∀ entry ∈ forwarded,
    ∀ name ∈ [ascii "Authorization", ascii "Host", ascii "Connection"],
      ¬SameName letters entry.1 name

theorem lower_of_sameName {given : Bytes} (same : SameName letters given userHeader) :
    letters.lower (trimSpace given) = ascii "x-agentd-broker-user" := by
  rw [sameName_iff_of_ascii (lt_of_all_lt (by decide))] at same
  rw [same]
  decide

theorem sameName_userHeader : SameName letters userHeader userHeader := by
  have trimmed : trimSpace userHeader = userHeader := by decide
  rw [SameName, trimmed]

theorem lower_traceHeader : letters.lower (trimSpace traceHeader) = ascii "x-trace-id" := by
  have trimmed : trimSpace traceHeader = traceHeader := by decide
  rw [trimmed, letters.ascii traceHeader (lt_of_all_lt (by decide))]
  decide

theorem not_sameName_traceHeader : ¬SameName letters traceHeader userHeader := by
  intro same
  have lowered := (lower_of_sameName same).symm.trans lower_traceHeader
  exact absurd lowered (by decide)

theorem mem_withheldNames {given name : Bytes}
    (member : name ∈ [ascii "Authorization", ascii "Host", ascii "Connection"])
    (same : SameName letters given name) : letters.lower (trimSpace given) ∈ withheldNames := by
  have plain : (name.all fun byte => byte < 128) = true ∧ name.map lowerByte ∈ withheldNames := by
    simp only [List.mem_cons, List.not_mem_nil, or_false] at member
    rcases member with same | same | same <;> subst same <;> decide
  rw [sameName_iff_of_ascii (lt_of_all_lt plain.1)] at same
  rw [same]
  exact plain.2

variable {name : Bytes}

theorem forwards_of_sameName (same : SameName letters name userHeader) :
    forwards letters name = true := by
  have lowered := lower_of_sameName same
  have notWithheld : letters.lower (trimSpace name) ∉ withheldNames := by
    rw [lowered]
    decide
  have nonempty : trimSpace name ≠ [] := by
    intro empty
    rw [empty, letters.ascii [] (List.forall_mem_nil _)] at lowered
    exact absurd lowered (by decide)
  simp [forwards, nonempty, notWithheld]

variable {sub traceId : Bytes} {headers : Headers}

theorem mem_names_forwardedHeaders
    (member : name ∈ (forwardedHeaders letters sub traceId headers).map Prod.fst) :
    forwards letters name = true ∨ name = userHeader ∨ name = traceHeader := by
  rw [forwardedHeaders] at member
  have copied : name ∈ ((copyHeaders letters headers []).set userHeader sub).map Prod.fst →
      forwards letters name = true ∨ name = userHeader := by
    rw [mem_names_set, mem_names_copyHeaders]
    rintro ((impossible | ⟨_, forwards⟩) | same)
    · exact nomatch impossible
    · exact .inl forwards
    · exact .inr same
  split at member
  · rcases mem_names_set.mp member with there | same
    · exact (copied there).imp_right .inl
    · exact .inr (.inr same)
  · exact (copied member).imp_right .inl

theorem not_withheld (member : name ∈ (forwardedHeaders letters sub traceId headers).map Prod.fst) :
    letters.lower (trimSpace name) ∉ withheldNames := by
  rcases mem_names_forwardedHeaders member with forwards | same | same
  · rw [AgentTasks.forwards, Bool.and_eq_true] at forwards
    simpa using forwards.2
  · rw [same, lower_of_sameName sameName_userHeader]
    decide
  · rw [same, lower_traceHeader]
    decide

theorem filter_set {value name : Bytes} (keep : Bytes → Bool) :
    (headers.set name value).filter (fun entry => keep entry.1) =
      if keep name then
        (headers.filter fun entry => entry.1 ≠ name && keep entry.1) ++ [(name, value)]
      else headers.filter fun entry => keep entry.1 := by
  rw [Headers.set, List.filter_append, List.filter_filter]
  cases kept : keep name with
  | true => simp [kept, Bool.and_comm]
  | false =>
    have others : ∀ entry ∈ headers,
        (keep entry.1 && decide (entry.1 ≠ name)) = keep entry.1 := by
      intro entry _
      by_cases same : entry.1 = name
      · simp [same, kept]
      · simp [same]
    rw [List.filter_congr others, List.filter_cons_of_neg (by simp [kept])]
    simp

theorem filter_forwardedHeaders :
    (forwardedHeaders letters sub traceId headers).filter
        (fun entry => SameName letters entry.1 userHeader) =
      ((copyHeaders letters headers []).filter fun entry =>
        entry.1 ≠ userHeader && SameName letters entry.1 userHeader) ++ [(userHeader, sub)] := by
  have first := @filter_set (copyHeaders letters headers []) sub userHeader
    fun name => SameName letters name userHeader
  rw [if_pos (decide_eq_true sameName_userHeader)] at first
  rw [forwardedHeaders, ← first]
  split
  · rw [filter_set fun name => SameName letters name userHeader, if_neg]
    exact fun same => not_sameName_traceHeader (of_decide_eq_true same)
  · rfl

theorem no_other_spelling_iff :
    ((copyHeaders letters headers []).filter fun entry =>
      entry.1 ≠ userHeader && SameName letters entry.1 userHeader) = [] ↔
      ∀ name ∈ headers.map Prod.fst, SameName letters name userHeader → name = userHeader := by
  rw [List.filter_eq_nil_iff]
  constructor
  · intro none name supplied same
    have copied : name ∈ (copyHeaders letters headers []).map Prod.fst :=
      mem_names_copyHeaders.mpr (.inr ⟨supplied, forwards_of_sameName same⟩)
    rcases List.mem_map.mp copied with ⟨entry, member, nameOf⟩
    subst nameOf
    by_contra different
    exact none entry member (by simp [different, same])
  · intro only entry member
    rcases mem_names_copyHeaders.mp (List.mem_map_of_mem member) with impossible | ⟨supplied, _⟩
    · exact nomatch impossible
    · have known := only entry.1 supplied
      simpa using fun different same => different (known same)

/-- The user header is the broker's alone exactly if no supplied name is another
spelling of it. -/
theorem user_header_kept_iff (letters : LowerCase) (sub traceId : Bytes) (headers : Headers) :
    UserKept letters sub (forwardedHeaders letters sub traceId headers) ↔
      ∀ name ∈ headers.map Prod.fst, SameName letters name userHeader → name = userHeader := by
  rw [← no_other_spelling_iff]
  constructor
  · rintro ⟨⟨name, single⟩, _⟩
    rw [filter_forwardedHeaders] at single
    have lengths := congrArg List.length single
    rw [List.length_append, List.length_singleton, List.length_singleton] at lengths
    exact List.eq_nil_of_length_eq_zero (by omega)
  · intro none
    refine ⟨⟨userHeader, ?_⟩, ?_⟩
    · rw [filter_forwardedHeaders, none, List.nil_append]
    · intro entry member name withheld same
      exact not_withheld (List.mem_map_of_mem member) (mem_withheldNames withheld same)

/-- A caller names another user. -/
theorem user_header_spoofed :
    ¬UserKept LowerCase.asciiOnly (ascii "alice")
      (forwardedHeaders LowerCase.asciiOnly (ascii "alice") []
        [(ascii "x-agentd-broker-user", ascii "bob")]) := by
  rintro ⟨⟨name, single⟩, _⟩
  have two : (forwardedHeaders LowerCase.asciiOnly (ascii "alice") []
      [(ascii "x-agentd-broker-user", ascii "bob")]).countP
        (fun entry => SameName LowerCase.asciiOnly entry.1 userHeader) = 2 := by
    decide
  rw [List.countP_eq_length_filter, single] at two
  exact nomatch two

end User

end AgentC.Broker.AgentTasks

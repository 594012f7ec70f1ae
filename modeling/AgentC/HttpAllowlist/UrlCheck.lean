import AgentC.HttpAllowlist.Addresses

/-! # The check of outbound URLs

`workflow_http_url_check` of `daemon/src/http_allowlist.cpp`, and what it
promises under `deny_private` of the addresses that the host of an accepted URL
stands for. -/

namespace AgentC.HttpAllowlist

/-- The fields of the daemon's configuration that the check reads. -/
structure HttpPolicy where
  allowHosts : List Bytes := []
  allowCidrs : List Bytes := []
  denyCidrs : List Bytes := []
  denyPrivateAddrs : Bool := false
deriving DecidableEq, Repr

structure WorkflowHttpUrlCheck where
  host : Bytes := []
  port : Int := 0
  hostIsIp : Bool := false
  resolvedAddrs : List Bytes := []
deriving DecidableEq, Repr

/-- The result of the check with the reason of a refusal and the evidence. -/
structure UrlDecision where
  allowed : Bool
  reason : Bytes := []
  check : WorkflowHttpUrlCheck := {}
deriving DecidableEq, Repr

variable (network : Network) (cfg : HttpPolicy)

def allowHostsMatch (allowHosts : List Bytes) (target : HostPort) : Bool :=
  allowHosts.any fun entry =>
    match parseHostport entry with
    | .error _ => false
    | .ok allow => allow.host = target.host && (!allow.hasPort || allow.port = target.port)

/-- `allow_cidrs_match`: some address lies in some block. -/
def allowCidrsMatch (allowCidrs : List Bytes) (addrs : List IpAddr) : Bool :=
  addrs.any fun ip => (parsedCidrs network allowCidrs).any fun parsed => ipInCidr ip parsed.2

/-- `deny_cidrs_match_any`: the first entry that some address matches. -/
def denyCidrsMatchAny (denyCidrs : List Bytes) (addrs : List IpAddr) : Option Bytes :=
  addrs.findSome? fun ip =>
    ((parsedCidrs network denyCidrs).find? fun parsed => ipInCidr ip parsed.2).map Prod.fst

def anyPrivate (addrs : List IpAddr) : Bool :=
  addrs.any IpAddr.isPrivateOrLoopback

def checkAllowlist (check : WorkflowHttpUrlCheck) (hasAllow allowMatch : Bool)
    (target : HostPort) : UrlDecision :=
  if !hasAllow || allowMatch then { allowed := true, check := check }
  else
    { allowed := false
      reason := ascii "url target not in allowlist: " ++ hostportToString target
      check := check }

/-- The check behind the parsing of the URL. -/
def checkTarget (target : HostPort) : UrlDecision :=
  let hasAllow := !cfg.allowHosts.isEmpty || !cfg.allowCidrs.isEmpty
  let hostMatch := allowHostsMatch cfg.allowHosts target
  let targetIsIp := hostIsLiteralIp network target.host
  let addrs := resolveHostBestEffort network target.host
  let check : WorkflowHttpUrlCheck :=
    ⟨target.host, target.port, targetIsIp, ipStringsFromAddrsBestEffort network addrs⟩
  let cidrMatch := allowCidrsMatch network cfg.allowCidrs addrs
  match denyCidrsMatchAny network cfg.denyCidrs addrs with
  | some entry =>
    { allowed := false, reason := ascii "target matches deny-cidr " ++ entry, check := check }
  | none =>
    if cfg.denyPrivateAddrs then
      if !targetIsIp && addrs.isEmpty then
        { allowed := false
          reason := ascii "dns resolution failed for host (deny-private enabled)"
          check := check }
      else if anyPrivate addrs then
        if cidrMatch || (hostMatch && targetIsIp) then { allowed := true, check := check }
        else
          { allowed := false
            reason := ascii "target resolves to private/loopback address"
            check := check }
      else checkAllowlist check hasAllow (hostMatch || cidrMatch) target
    else checkAllowlist check hasAllow (hostMatch || cidrMatch) target

def workflowHttpUrlCheck (url : Bytes) : UrlDecision :=
  if cfg.allowHosts.isEmpty && cfg.allowCidrs.isEmpty && cfg.denyCidrs.isEmpty &&
      !cfg.denyPrivateAddrs then
    { allowed := true }
  else
    match parseHttpUrlTargetHostport url with
    | .error reason =>
      { allowed := false
        reason := ascii "failed to parse url for allowlist check: " ++ reason }
    | .ok target => checkTarget network cfg target

def InBlocks (entries : List Bytes) (ip : IpAddr) : Prop :=
  ∃ entry ∈ entries, ∃ cidr, cidrParse network entry = .ok cidr ∧ cidr.Contains ip

def Exempt (target : HostPort) : Prop :=
  hostIsLiteralIp network target.host = true ∧
    ∃ entry ∈ cfg.allowHosts, ∃ allow, parseHostport entry = .ok allow ∧
      allow.host = target.host ∧ (allow.hasPort = true → allow.port = target.port)

structure Permitted (target : HostPort) (ip : IpAddr) : Prop where
  notDenied : ¬InBlocks network cfg.denyCidrs ip
  reachable : ip.isPrivateOrLoopback = false ∨ InBlocks network cfg.allowCidrs ip ∨
    Exempt network cfg target

/-- The answer of the resolver holds nothing that the check passes over: the
addresses it does not look at, or not as they are meant, are permitted, and if
one that it looks at lies in an allowed block then the private ones all do. -/
structure SoundAnswer (target : HostPort) : Prop where
  unseen : ∀ ip ∈ addressesOf network target.host,
    ip ∈ (addressesOf network target.host).drop maxAddresses ∨ ip.IsMapped →
      Permitted network cfg target ip.meant
  alike : ¬Exempt network cfg target →
    (∃ ip ∈ (addressesOf network target.host).take maxAddresses,
      InBlocks network cfg.allowCidrs ip) →
    ∀ ip ∈ (addressesOf network target.host).take maxAddresses, ¬ip.IsMapped →
      ip.isPrivateOrLoopback = true → InBlocks network cfg.allowCidrs ip

variable {network cfg}

theorem parsedCidrs_any_iff {entries : List Bytes} {ip : IpAddr} :
    (parsedCidrs network entries).any (fun parsed => ipInCidr ip parsed.2) = true ↔
      InBlocks network entries ip := by
  rw [List.any_eq_true, InBlocks]
  constructor
  · rintro ⟨parsed, member, inside⟩
    rcases List.mem_filterMap.mp member with ⟨entry, listed, read⟩
    rcases Option.map_eq_some_iff.mp read with ⟨cidr, valid, same⟩
    rw [← same] at inside
    refine ⟨entry, listed, cidr, ?_, (ipInCidr_iff ip cidr).mp inside⟩
    cases result : cidrParse network entry with
    | error reason =>
      rw [result] at valid
      cases valid
    | ok parsed =>
      rw [result] at valid
      exact congrArg Except.ok (Option.some.inj valid)
  · rintro ⟨entry, listed, cidr, valid, inside⟩
    refine ⟨(entry, cidr), List.mem_filterMap.mpr ⟨entry, listed, ?_⟩, (ipInCidr_iff ip cidr).mpr
      inside⟩
    rw [valid]
    rfl

theorem allowHostsMatch_iff {allowHosts : List Bytes} {target : HostPort} :
    allowHostsMatch allowHosts target = true ↔
      ∃ entry ∈ allowHosts, ∃ allow, parseHostport entry = .ok allow ∧
        allow.host = target.host ∧ (allow.hasPort = true → allow.port = target.port) := by
  rw [allowHostsMatch, List.any_eq_true]
  apply exists_congr
  intro entry
  apply and_congr_right
  intro _
  cases parseHostport entry with
  | error reason => simp
  | ok allow =>
    simp only [Bool.and_eq_true, decide_eq_true_eq, Bool.or_eq_true, Bool.not_eq_true',
      Except.ok.injEq, exists_eq_left']
    apply and_congr_right
    intro _
    cases allow.hasPort <;> simp

theorem denyCidrsMatchAny_eq_none {denyCidrs : List Bytes} {addrs : List IpAddr}
    (none : denyCidrsMatchAny network denyCidrs addrs = .none) :
    ∀ ip ∈ addrs, ¬InBlocks network denyCidrs ip := by
  intro ip member inside
  rw [← parsedCidrs_any_iff, List.any_eq_true] at inside
  rcases inside with ⟨parsed, listed, matches'⟩
  have missed := List.findSome?_eq_none_iff.mp none ip member
  rw [Option.map_eq_none_iff, List.find?_eq_none] at missed
  exact missed parsed listed matches'

/-- No address that was looked at lies in a denied block, and if one of them is
private then one lies in an allowed block or the host is exempt. -/
theorem checkTarget_allowed {target : HostPort} (denyPrivate : cfg.denyPrivateAddrs = true)
    (allowed : (checkTarget network cfg target).allowed = true) :
    (∀ ip ∈ resolveHostBestEffort network target.host, ¬InBlocks network cfg.denyCidrs ip) ∧
      ((∃ ip ∈ resolveHostBestEffort network target.host, ip.isPrivateOrLoopback = true) →
        (∃ ip ∈ resolveHostBestEffort network target.host,
            InBlocks network cfg.allowCidrs ip) ∨ Exempt network cfg target) := by
  simp only [checkTarget] at allowed
  split at allowed
  · cases allowed
  · next none =>
    refine ⟨denyCidrsMatchAny_eq_none none, ?_⟩
    intro isPrivate
    have anyone : anyPrivate (resolveHostBestEffort network target.host) = true :=
      List.any_eq_true.mpr isPrivate
    rw [if_pos denyPrivate, if_pos anyone] at allowed
    split at allowed
    · cases allowed
    · split at allowed
      · next listed =>
        rw [Bool.or_eq_true, Bool.and_eq_true, allowCidrsMatch, List.any_eq_true] at listed
        rcases listed with ⟨ip, member, inside⟩ | ⟨hostMatch, literal⟩
        · exact .inl ⟨ip, member, parsedCidrs_any_iff.mp inside⟩
        · exact .inr ⟨literal, allowHostsMatch_iff.mp hostMatch⟩
      · cases allowed

theorem meant_of_not_isMapped {ip : IpAddr} (plain : ¬ip.IsMapped) : ip.meant = ip :=
  dif_neg plain

/-- Under `deny_private` the addresses of the host of an accepted URL are all
permitted, an IPv4-mapped one as the address it embeds, exactly when the
answer of the resolver holds nothing that the check passes over. -/
theorem accepted_permitted_iff (network : Network) (cfg : HttpPolicy) (url : Bytes)
    (denyPrivate : cfg.denyPrivateAddrs = true)
    (allowed : (workflowHttpUrlCheck network cfg url).allowed = true) :
    ∃ target, parseHttpUrlTargetHostport url = .ok target ∧
      ((∀ ip ∈ addressesOf network target.host, Permitted network cfg target ip.meant) ↔
        SoundAnswer network cfg target) := by
  have checked : ¬(cfg.allowHosts.isEmpty && cfg.allowCidrs.isEmpty && cfg.denyCidrs.isEmpty &&
      !cfg.denyPrivateAddrs) = true := by
    rw [denyPrivate]
    simp
  rw [workflowHttpUrlCheck, if_neg checked] at allowed
  split at allowed
  · cases allowed
  · next target parsed =>
    refine ⟨target, parsed, ?_⟩
    rcases checkTarget_allowed denyPrivate allowed with ⟨notDenied, listed⟩
    rw [resolveHostBestEffort_eq network (host_ne_nil parsed)] at notDenied listed
    constructor
    · intro permitted
      refine ⟨fun ip member _ => permitted ip member, ?_⟩
      intro notExempt _ ip member plain isPrivate
      have here := (permitted ip (List.mem_of_mem_take member)).reachable
      rw [meant_of_not_isMapped plain] at here
      rcases here with isPublic | inside | exempt
      · rw [isPrivate] at isPublic
        cases isPublic
      · exact inside
      · exact absurd exempt notExempt
    · intro sound ip member
      by_cases mapped : ip.IsMapped
      · exact sound.unseen ip member (.inr mapped)
      · have halves := List.take_append_drop maxAddresses (addressesOf network target.host)
        rw [← halves] at member
        rcases List.mem_append.mp member with looked | passed
        · rw [meant_of_not_isMapped mapped]
          refine ⟨notDenied ip looked, ?_⟩
          cases isPrivate : ip.isPrivateOrLoopback with
          | false => exact .inl rfl
          | true =>
            by_cases exempt : Exempt network cfg target
            · exact .inr (.inr exempt)
            · have someone := (listed ⟨ip, looked, isPrivate⟩).resolve_right exempt
              exact .inr (.inl (sound.alike exempt someone ip looked mapped isPrivate))
        · exact sound.unseen ip (List.mem_of_mem_drop passed) (.inl passed)

def sampleNetwork : Network where
  inetPton
    | .inet, host => if host = ascii "10.0.0.0" then some ⟨[10, 0, 0, 0], by decide⟩ else none
    | .inet6, host =>
      if host = ascii "::ffff:10.0.0.1" then
        some ⟨[0, 0, 0, 0, 0, 0, 0, 0, 0, 0, 0xff, 0xff, 10, 0, 0, 1], rfl⟩
      else none
  getaddrinfo host :=
    if host = ascii "service.example" then [⟨.inet, [93, 184, 215, 14], rfl⟩] else []
  inetNtop _ := []

def samplePolicy : HttpPolicy where
  denyCidrs := [ascii "10.0.0.0/8"]
  denyPrivateAddrs := true

theorem accepted_permitted_iff_sample :
    ∃ target, parseHttpUrlTargetHostport (ascii "https://service.example/") = .ok target ∧
      ∀ ip ∈ addressesOf sampleNetwork target.host,
        Permitted sampleNetwork samplePolicy target ip.meant := by
  rcases accepted_permitted_iff sampleNetwork samplePolicy (ascii "https://service.example/")
    (by decide) (by decide) with ⟨target, parsed, iff⟩
  refine ⟨target, parsed, iff.mpr ?_⟩
  have isTarget : target = ⟨ascii "service.example", 443, false⟩ := by
    have read : parseHttpUrlTargetHostport (ascii "https://service.example/") =
        .ok ⟨ascii "service.example", 443, false⟩ := by decide
    rw [read] at parsed
    exact (Except.ok.inj parsed).symm
  rw [isTarget]
  constructor
  · intro ip member passed
    have single : ip = ⟨.inet, [93, 184, 215, 14], rfl⟩ := List.mem_singleton.mp member
    rw [single] at passed
    rcases passed with beyond | mapped
    · exact nomatch beyond
    · exact nomatch mapped.1
  · rintro _ ⟨ip, _, entry, listed, _⟩
    exact nomatch listed

/-- A mapped address is neither denied nor private to the check. -/
theorem mapped_address_not_permitted :
    ¬∀ (network : Network) (cfg : HttpPolicy) (url : Bytes), cfg.denyPrivateAddrs = true →
      (workflowHttpUrlCheck network cfg url).allowed = true →
      ∃ target, parseHttpUrlTargetHostport url = .ok target ∧
        ∀ ip ∈ addressesOf network target.host, Permitted network cfg target ip.meant := by
  intro always
  rcases always sampleNetwork samplePolicy (ascii "http://[::ffff:10.0.0.1]/") (by decide)
    (by decide) with ⟨target, parsed, permitted⟩
  have read : parseHttpUrlTargetHostport (ascii "http://[::ffff:10.0.0.1]/") =
      .ok ⟨ascii "::ffff:10.0.0.1", 80, false⟩ := by decide
  rw [read] at parsed
  rw [← Except.ok.inj parsed] at permitted
  have here := permitted ⟨.inet6, [0, 0, 0, 0, 0, 0, 0, 0, 0, 0, 0xff, 0xff, 10, 0, 0, 1], rfl⟩
    (List.mem_singleton.mpr rfl)
  rcases here.reachable with isPublic | ⟨entry, listed, _⟩ | ⟨_, entry, listed, _⟩
  · exact absurd isPublic (by decide)
  · exact nomatch listed
  · exact nomatch listed

end AgentC.HttpAllowlist

import AgentC.EdgeConsensus.Tokens
import AgentC.Foundation.SignedArithmetic

/-! # Timing of the consensus loop

The clock predicates of `core/src/agent_edge_interop.c`. Times are 64-bit
integers in the source; every difference below is taken of two positive numbers
or of a positive and a non-negative one, so no result leaves the 64-bit range
and integers of any size say the same. -/

namespace AgentC.EdgeConsensus

def policyRetryMaxMs : Int := 120000

def policyLeaseMaxMs : Int := 300000

def policyStaleRuntimeRecoveryGraceMaxMs : Int := 86400000

def policyBackoffFactorMin : Int := 1

def policyBackoffFactorMax : Int := 8

def int64Max : Int := 2 ^ 63 - 1

def consensusClampI64 (value lo hi : Int) : Int :=
  if value < lo then lo else if value > hi then hi else value

structure PolicyTiming where
  campaignDelayMs : Int
  campaignRetryMs : Int
  campaignRetryMaxMs : Int
  campaignRetryBackoffFactor : Int
  leaderHeartbeatMs : Int
  leaderLeaseMs : Int
  leaseExpiryRecampaignDelayMs : Int
  staleRuntimeRecoveryGraceMs : Int
deriving DecidableEq, Repr

def policyTimingNormalize (timing : PolicyTiming) : PolicyTiming :=
  let campaignRetryMs := consensusClampI64 timing.campaignRetryMs 0 policyRetryMaxMs
  let boundedRetryMaxMs :=
    if timing.campaignRetryMaxMs > policyLeaseMaxMs then policyLeaseMaxMs
    else timing.campaignRetryMaxMs
  let leaderHeartbeatMs := consensusClampI64 timing.leaderHeartbeatMs 0 policyRetryMaxMs
  let boundedLeaseMs :=
    if timing.leaderLeaseMs > policyLeaseMaxMs then policyLeaseMaxMs else timing.leaderLeaseMs
  { campaignDelayMs := consensusClampI64 timing.campaignDelayMs 0 policyRetryMaxMs
    campaignRetryMs := campaignRetryMs
    campaignRetryMaxMs :=
      if boundedRetryMaxMs < campaignRetryMs then campaignRetryMs else boundedRetryMaxMs
    campaignRetryBackoffFactor := consensusClampI64 timing.campaignRetryBackoffFactor
      policyBackoffFactorMin policyBackoffFactorMax
    leaderHeartbeatMs := leaderHeartbeatMs
    leaderLeaseMs :=
      if boundedLeaseMs < leaderHeartbeatMs then leaderHeartbeatMs else boundedLeaseMs
    leaseExpiryRecampaignDelayMs :=
      consensusClampI64 timing.leaseExpiryRecampaignDelayMs 0 policyLeaseMaxMs
    staleRuntimeRecoveryGraceMs := consensusClampI64 timing.staleRuntimeRecoveryGraceMs 0
      policyStaleRuntimeRecoveryGraceMaxMs }

/-- The loop of `campaign_retry_delay_ms`: multiply once for every further
attempt and saturate at the largest 64-bit integer. -/
def backoffDelay (factor : Int) : Nat → Int → Int
  | 0, delay => delay
  | further + 1, delay =>
    if delay > int64Max / factor then int64Max
    else backoffDelay factor further (delay * factor)

def campaignRetryDelayMs (campaignRetryMs campaignRetryMaxMs campaignRetryBackoffFactor : Int)
    (campaignAttempts : UInt64) : Int :=
  if campaignRetryMs ≤ 0 ∨ campaignAttempts < 1 then 0
  else
    let factor := consensusClampI64 campaignRetryBackoffFactor policyBackoffFactorMin
      policyBackoffFactorMax
    let delay := backoffDelay factor (campaignAttempts.toNat - 1) campaignRetryMs
    let cap := if campaignRetryMaxMs > 0 then campaignRetryMaxMs else campaignRetryMs
    let capped := if cap > 0 ∧ delay > cap then cap else delay
    if capped < 0 then 0 else capped

def leaderHeartbeatDue (leaderHeartbeatMs nowUtcMs lastLeaderHeartbeatSentUtcMs : Int)
    (leaderIsSelf hasCommittedDecision : Bool) : Bool :=
  if leaderHeartbeatMs ≤ 0 ∨ nowUtcMs ≤ 0 then false
  else if !leaderIsSelf || !hasCommittedDecision then false
  else if lastLeaderHeartbeatSentUtcMs ≤ 0 then true
  else leaderHeartbeatMs ≤ nowUtcMs - lastLeaderHeartbeatSentUtcMs

def leaderLeaseExpired (leaderLeaseMs nowUtcMs lastLeaderContactUtcMs : Int)
    (hasLeader leaderIsSelf : Bool) : Bool :=
  if leaderLeaseMs ≤ 0 ∨ nowUtcMs ≤ 0 then false
  else if !hasLeader || leaderIsSelf then false
  else if lastLeaderContactUtcMs ≤ 0 then false
  else leaderLeaseMs ≤ nowUtcMs - lastLeaderContactUtcMs

def leaseExpiryRecampaignDelayActive
    (leaseExpiryRecampaignDelayMs nowUtcMs lastLeaderLeaseExpiredUtcMs : Int) : Bool :=
  if leaseExpiryRecampaignDelayMs ≤ 0 ∨ nowUtcMs ≤ 0 then false
  else if lastLeaderLeaseExpiredUtcMs ≤ 0 then false
  else nowUtcMs - lastLeaderLeaseExpiredUtcMs < leaseExpiryRecampaignDelayMs

def campaignLastStartedAfterLeaseExpiry (nowUtcMs retryDelayMs : Int) (electionStarted : Bool)
    (lastCampaignStartedUtcMs : Int) : Int :=
  if !electionStarted then lastCampaignStartedUtcMs
  else if lastCampaignStartedUtcMs ≤ 0 then lastCampaignStartedUtcMs
  else if nowUtcMs ≤ 0 then lastCampaignStartedUtcMs
  else nowUtcMs - (if retryDelayMs < 0 then 0 else retryDelayMs)

def campaignStartDue (nowUtcMs startedUtcMs campaignDelayMs : Int) (electionStarted : Bool)
    (lastCampaignStartedUtcMs retryDelayMs : Int) : Bool :=
  if nowUtcMs ≤ 0 then false
  else if !electionStarted then
    if startedUtcMs ≤ 0 then campaignDelayMs ≤ 0
    else campaignDelayMs ≤ nowUtcMs - startedUtcMs
  else if retryDelayMs ≤ 0 then false
  else if lastCampaignStartedUtcMs ≤ 0 then true
  else retryDelayMs ≤ nowUtcMs - lastCampaignStartedUtcMs

def campaignCanStart (hasCampaignDecision hasCommittedDecision campaignStartDue : Bool) : Bool :=
  hasCampaignDecision && !hasCommittedDecision && campaignStartDue

inductive CampaignDecisionSource
  | none
  | config
  | lastKnown
deriving DecidableEq, Repr

def campaignDecisionSource (configuredDecisionSha256 lastKnownDecisionSha256 : Bytes) :
    CampaignDecisionSource :=
  if decisionSha256IsSet configuredDecisionSha256 then .config
  else if decisionSha256IsSet lastKnownDecisionSha256 then .lastKnown
  else .none

variable {hi lo : Int}

theorem consensusClampI64_mem (value : Int) (ordered : lo ≤ hi) :
    lo ≤ consensusClampI64 value lo hi ∧ consensusClampI64 value lo hi ≤ hi := by
  rw [consensusClampI64]
  split
  · exact ⟨Int.le_refl lo, ordered⟩
  · split <;> omega

theorem consensusClampI64_eq_self {value : Int} (above : lo ≤ value) (below : value ≤ hi) :
    consensusClampI64 value lo hi = value := by
  rw [consensusClampI64, if_neg (by omega), if_neg (by omega)]

theorem consensusClampI64_idem (value : Int) (ordered : lo ≤ hi) :
    consensusClampI64 (consensusClampI64 value lo hi) lo hi = consensusClampI64 value lo hi :=
  have bounds := consensusClampI64_mem value ordered
  consensusClampI64_eq_self bounds.1 bounds.2

theorem bounded_idem {floor : Int} (ordered : floor ≤ hi) (value : Int) :
    let bounded := fun value : Int =>
      let capped := if value > hi then hi else value
      if capped < floor then floor else capped
    bounded (bounded value) = bounded value ∧ floor ≤ bounded value := by
  dsimp only
  split <;> split <;> constructor <;> omega

theorem policyTimingNormalize_idem (timing : PolicyTiming) :
    policyTimingNormalize (policyTimingNormalize timing) = policyTimingNormalize timing := by
  have retry := consensusClampI64_mem timing.campaignRetryMs
    (by decide : 0 ≤ policyRetryMaxMs)
  have heartbeat := consensusClampI64_mem timing.leaderHeartbeatMs
    (by decide : 0 ≤ policyRetryMaxMs)
  have inLease : policyRetryMaxMs ≤ policyLeaseMaxMs := by decide
  have retryMax := bounded_idem (Int.le_trans retry.2 inLease) timing.campaignRetryMaxMs
  have lease := bounded_idem (Int.le_trans heartbeat.2 inLease) timing.leaderLeaseMs
  rw [policyTimingNormalize, PolicyTiming.mk.injEq]
  simp only [policyTimingNormalize,
    consensusClampI64_idem _ (by decide : 0 ≤ policyRetryMaxMs),
    consensusClampI64_idem _ (by decide : policyBackoffFactorMin ≤ policyBackoffFactorMax),
    consensusClampI64_idem _ (by decide : 0 ≤ policyLeaseMaxMs),
    consensusClampI64_idem _ (by decide : 0 ≤ policyStaleRuntimeRecoveryGraceMaxMs), true_and,
    and_true]
  exact ⟨retryMax.1, lease.1⟩

theorem policyTimingNormalize_ordered (timing : PolicyTiming) :
    (0 ≤ (policyTimingNormalize timing).campaignRetryMs ∧
      (policyTimingNormalize timing).campaignRetryMs ≤
        (policyTimingNormalize timing).campaignRetryMaxMs) ∧
    0 ≤ (policyTimingNormalize timing).leaderHeartbeatMs ∧
      (policyTimingNormalize timing).leaderHeartbeatMs ≤
        (policyTimingNormalize timing).leaderLeaseMs := by
  have retry := consensusClampI64_mem timing.campaignRetryMs
    (by decide : 0 ≤ policyRetryMaxMs)
  have heartbeat := consensusClampI64_mem timing.leaderHeartbeatMs
    (by decide : 0 ≤ policyRetryMaxMs)
  have inLease : policyRetryMaxMs ≤ policyLeaseMaxMs := by decide
  exact ⟨⟨retry.1, (bounded_idem (Int.le_trans retry.2 inLease) timing.campaignRetryMaxMs).2⟩,
    heartbeat.1, (bounded_idem (Int.le_trans heartbeat.2 inLease) timing.leaderLeaseMs).2⟩

/-! ## The delay between campaigns

In 64-bit arithmetic the delay saturates before it could overflow, so it is the exact
power, capped. -/

/-- The loop of `campaign_retry_delay_ms` in 64-bit arithmetic. -/
def backoffDelayI64 (factor : Int) : Nat → Int → Defined Int
  | 0, delay => pure delay
  | further + 1, delay => do
    let bound ← signed 64 (int64Max / factor)
    if delay > bound then return int64Max
    let delay ← signed 64 (delay * factor)
    backoffDelayI64 factor further delay

/-- `agent_edge_consensus_campaign_retry_delay_ms` -/
def campaignRetryDelayI64 (campaignRetryMs campaignRetryMaxMs campaignRetryBackoffFactor : Int64)
    (campaignAttempts : UInt64) : Defined Int :=
  if campaignRetryMs.toInt ≤ 0 ∨ campaignAttempts < 1 then return 0
  else do
    let factor := consensusClampI64 campaignRetryBackoffFactor.toInt policyBackoffFactorMin
      policyBackoffFactorMax
    let delay ← backoffDelayI64 factor (campaignAttempts.toNat - 1) campaignRetryMs.toInt
    let cap :=
      if campaignRetryMaxMs.toInt > 0 then campaignRetryMaxMs.toInt else campaignRetryMs.toInt
    let capped := if cap > 0 ∧ delay > cap then cap else delay
    return if capped < 0 then 0 else capped

section Backoff

variable {factor delay : Int}

theorem backoffDelayI64_computes (growing : 1 ≤ factor) (further : Nat) (positive : 0 < delay) :
    Computes (backoffDelayI64 factor further delay) True (backoffDelay factor further delay) := by
  induction further generalizing delay with
  | zero => exact .pure delay
  | succ further induction =>
    have bound : InSigned 64 (int64Max / factor) := by
      have below : int64Max / factor ≤ int64Max := Int.ediv_le_self factor (by decide)
      have above : 0 ≤ int64Max / factor := Int.ediv_nonneg (by decide) (by omega)
      rw [int64Max] at below above ⊢
      constructor <;> omega
    rw [backoffDelayI64, backoffDelay]
    apply (Computes.fits bound).then_safe
    split
    · exact .pure int64Max
    · next fits =>
      have product : delay * factor ≤ int64Max := by
        rw [← Int.le_ediv_iff_mul_le (by omega)]
        omega
      have inside : InSigned 64 (delay * factor) := by
        have above : 0 < delay * factor := Int.mul_pos positive (by omega)
        rw [int64Max] at product
        constructor <;> omega
      exact (Computes.fits inside).then_safe (induction (Int.mul_pos positive (by omega)))

/-- The loop computes the power, or the largest 64-bit integer if that is smaller. -/
theorem backoffDelay_eq_min (growing : 1 ≤ factor) (further : Nat) (positive : 0 < delay)
    (fits : delay ≤ int64Max) :
    backoffDelay factor further delay = min int64Max (delay * factor ^ further) := by
  induction further generalizing delay with
  | zero => rw [backoffDelay, pow_zero, mul_one, min_eq_right fits]
  | succ further induction =>
    rw [backoffDelay]
    split
    · next saturates =>
      have beyond : int64Max < delay * factor :=
        (Int.ediv_lt_iff_lt_mul (by omega)).mp saturates
      have grown : delay * factor ≤ delay * factor ^ (further + 1) := by
        apply Int.mul_le_mul_of_nonneg_left _ (by omega)
        calc factor = factor ^ 1 := (pow_one factor).symm
          _ ≤ factor ^ (further + 1) := pow_le_pow_right₀ growing (by omega)
      rw [min_eq_left (by omega)]
    · next stays =>
      have product : delay * factor ≤ int64Max := by
        rw [← Int.le_ediv_iff_mul_le (by omega)]
        omega
      rw [induction (Int.mul_pos positive (by omega)) product, mul_assoc, ← pow_succ']

end Backoff

section RetryDelay

variable (campaignRetryMs campaignRetryMaxMs campaignRetryBackoffFactor : Int64)

def retryCap : Int :=
  if 0 < campaignRetryMaxMs.toInt then campaignRetryMaxMs.toInt else campaignRetryMs.toInt

def backoffFactor : Int :=
  consensusClampI64 campaignRetryBackoffFactor.toInt policyBackoffFactorMin policyBackoffFactorMax

variable (campaignAttempts : UInt64)

theorem one_le_backoffFactor : 1 ≤ backoffFactor campaignRetryBackoffFactor :=
  (consensusClampI64_mem _ (by decide)).1

theorem campaignRetryDelayI64_computes : Computes
      (campaignRetryDelayI64 campaignRetryMs campaignRetryMaxMs campaignRetryBackoffFactor
        campaignAttempts) True (campaignRetryDelayMs campaignRetryMs.toInt campaignRetryMaxMs.toInt
        campaignRetryBackoffFactor.toInt campaignAttempts) := by
  rw [campaignRetryDelayI64, campaignRetryDelayMs]
  split
  · exact .pure 0
  · next campaigning =>
    have loop := backoffDelayI64_computes (one_le_backoffFactor campaignRetryBackoffFactor)
      (campaignAttempts.toNat - 1) (by omega : 0 < campaignRetryMs.toInt)
    exact loop.then_safe (.pure _)

theorem campaignRetryDelayMs_eq_min (retries : 0 < campaignRetryMs.toInt)
    (attempted : 1 ≤ campaignAttempts) :
    campaignRetryDelayMs campaignRetryMs.toInt campaignRetryMaxMs.toInt
        campaignRetryBackoffFactor.toInt campaignAttempts =
      min (retryCap campaignRetryMs campaignRetryMaxMs) (campaignRetryMs.toInt *
          backoffFactor campaignRetryBackoffFactor ^ (campaignAttempts.toNat - 1)) := by
  have started : ¬(campaignRetryMs.toInt ≤ 0 ∨ campaignAttempts < 1) := by
    rintro (none | none)
    · omega
    · exact absurd attempted (UInt64.not_le.mpr none)
  have below : campaignRetryMs.toInt ≤ int64Max := by
    have bound := campaignRetryMs.toInt_lt
    rw [int64Max]
    omega
  have loop := backoffDelay_eq_min (one_le_backoffFactor campaignRetryBackoffFactor)
    (campaignAttempts.toNat - 1) retries below
  have capped : 0 < retryCap campaignRetryMs campaignRetryMaxMs ∧
      retryCap campaignRetryMs campaignRetryMaxMs ≤ int64Max := by
    have bound := campaignRetryMaxMs.toInt_lt
    rw [retryCap]
    split
    · rw [int64Max]
      omega
    · exact ⟨retries, below⟩
  have grown : 0 < campaignRetryMs.toInt *
      backoffFactor campaignRetryBackoffFactor ^ (campaignAttempts.toNat - 1) :=
    Int.mul_pos retries (Int.pow_pos
      (Int.lt_of_lt_of_le Int.zero_lt_one (one_le_backoffFactor campaignRetryBackoffFactor)))
  rw [campaignRetryDelayMs, if_neg started]
  simp only [backoffFactor, retryCap, gt_iff_lt] at loop capped grown ⊢
  rw [loop]
  split <;> omega

theorem campaignRetryDelayMs_mono {fewer more : UInt64} (ordered : fewer ≤ more) :
    campaignRetryDelayMs campaignRetryMs.toInt campaignRetryMaxMs.toInt
        campaignRetryBackoffFactor.toInt fewer ≤
      campaignRetryDelayMs campaignRetryMs.toInt campaignRetryMaxMs.toInt
        campaignRetryBackoffFactor.toInt more := by
  by_cases started : campaignRetryMs.toInt ≤ 0 ∨ fewer < 1
  · rw [campaignRetryDelayMs, if_pos started, campaignRetryDelayMs]
    split
    · exact Int.le_refl 0
    · dsimp only
      split <;> omega
  · rw [not_or, not_le, UInt64.not_lt] at started
    have capped := campaignRetryDelayMs_eq_min campaignRetryMs campaignRetryMaxMs
      campaignRetryBackoffFactor
    rw [capped fewer started.1 started.2,
      capped more started.1 (UInt64.le_trans started.2 ordered)]
    apply min_le_min_left
    apply Int.mul_le_mul_of_nonneg_left _ (Int.le_of_lt started.1)
    exact pow_le_pow_right₀ (one_le_backoffFactor campaignRetryBackoffFactor)
      (Nat.sub_le_sub_right (UInt64.le_iff_toNat_le.mp ordered) 1)

end RetryDelay

/-- Normalization is idempotent and orders the bounds; the delay never overflows, grows with
the attempts, and is the capped power. -/
theorem consensus_timing_exact :
    (∀ timing, policyTimingNormalize (policyTimingNormalize timing) = policyTimingNormalize timing ∧
      (0 ≤ (policyTimingNormalize timing).campaignRetryMs ∧
        (policyTimingNormalize timing).campaignRetryMs ≤
          (policyTimingNormalize timing).campaignRetryMaxMs) ∧
      0 ≤ (policyTimingNormalize timing).leaderHeartbeatMs ∧
        (policyTimingNormalize timing).leaderHeartbeatMs ≤
          (policyTimingNormalize timing).leaderLeaseMs) ∧
    ∀ retry maximum factor : Int64,
      (∀ attempts, ∃ delay, campaignRetryDelayI64 retry maximum factor attempts = .ok delay) ∧
      (∀ fewer more, fewer ≤ more → ∀ delay longer,
        campaignRetryDelayI64 retry maximum factor fewer = .ok delay →
        campaignRetryDelayI64 retry maximum factor more = .ok longer → delay ≤ longer) ∧
      ∀ attempts, 0 < retry.toInt → 1 ≤ attempts →
        campaignRetryDelayI64 retry maximum factor attempts =
          .ok (min (retryCap retry maximum)
            (retry.toInt * backoffFactor factor ^ (attempts.toNat - 1))) := by
  refine ⟨fun timing => ⟨policyTimingNormalize_idem timing, policyTimingNormalize_ordered timing⟩,
    fun retry maximum factor => ?_⟩
  have computes := campaignRetryDelayI64_computes retry maximum factor
  refine ⟨fun attempts => ⟨_, (computes attempts).eq_ok trivial⟩, ?_, ?_⟩
  · intro fewer more ordered delay longer computed computedMore
    rw [(computes fewer).result delay computed, (computes more).result longer computedMore]
    exact campaignRetryDelayMs_mono retry maximum factor ordered
  · intro attempts retries attempted
    rw [(computes attempts).eq_ok trivial,
      campaignRetryDelayMs_eq_min retry maximum factor attempts retries attempted]

/-- Three seconds, doubled, up to half a minute. -/
theorem consensus_timing_exact_sample :
    0 < (3000 : Int64).toInt ∧ (1 : UInt64) ≤ 5 ∧
      campaignRetryDelayI64 3000 30000 2 5 = .ok 30000 :=
  ⟨by decide, by decide,
    (consensus_timing_exact.2 3000 30000 2).2.2 5 (by decide) (by decide)⟩

end AgentC.EdgeConsensus

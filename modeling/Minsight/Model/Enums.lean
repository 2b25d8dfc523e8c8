/-! # Domain enumerations -/

namespace Minsight

inductive AlertStatus
  | new | triaged | eventLinked | archived
  deriving DecidableEq, Repr

inductive RouteDecision
  | archiveLowRisk | archiveWhitelist | archiveDedup
  | queueDeepReview | queueUncertain | sampleAudit
  deriving DecidableEq, Repr

/-- The value a route is stored and configured under. -/
def RouteDecision.value : RouteDecision → String
  | .archiveLowRisk => "archive_low_risk"
  | .archiveWhitelist => "archive_whitelist"
  | .archiveDedup => "archive_dedup"
  | .queueDeepReview => "queue_deep_review"
  | .queueUncertain => "queue_uncertain"
  | .sampleAudit => "sample_audit"

inductive WhitelistRuleType
  | ip | user | host | hash | composite
  deriving DecidableEq, Repr

/-- `WhitelistRuleType(value)`, which raises `ValueError` on any other text. -/
def WhitelistRuleType.ofValue : String → Option WhitelistRuleType
  | "ip" => some .ip
  | "user" => some .user
  | "host" => some .host
  | "hash" => some .hash
  | "composite" => some .composite
  | _ => none

inductive WhitelistRuleStatus
  | candidate | active | expired | revoked
  deriving DecidableEq, Repr

inductive WhitelistCandidateStatus
  | pending | promoted | rejected
  deriving DecidableEq, Repr

inductive EntityType
  | ip | host | user | domain
  deriving DecidableEq, Repr

def EntityType.value : EntityType → String
  | .ip => "ip"
  | .host => "host"
  | .user => "user"
  | .domain => "domain"

/-- `EntityType(value)`, which raises `ValueError` on any other text. -/
def EntityType.ofValue : String → Option EntityType
  | "ip" => some .ip
  | "host" => some .host
  | "user" => some .user
  | "domain" => some .domain
  | _ => none

inductive AssetCriticality
  | critical | high | medium | low
  deriving DecidableEq, Repr

inductive EntityMemoryType
  | behaviorNote | pastVerdict | operatorComment
  deriving DecidableEq, Repr

def EntityMemoryType.value : EntityMemoryType → String
  | .behaviorNote => "behavior_note"
  | .pastVerdict => "past_verdict"
  | .operatorComment => "operator_comment"

inductive EventStatus
  | pendingReview | investigating | concluded | humanPending | closed
  deriving DecidableEq, Repr

inductive InvestigationStatus
  | running | completed | failed | needsHuman | degraded
  deriving DecidableEq, Repr

inductive InvestigationVerdict
  | attackConfirmed | likelyFalsePositive | insufficientInformation | needsHumanReview
  deriving DecidableEq, Repr

def InvestigationVerdict.value : InvestigationVerdict → String
  | .attackConfirmed => "attack_confirmed"
  | .likelyFalsePositive => "likely_false_positive"
  | .insufficientInformation => "insufficient_information"
  | .needsHumanReview => "needs_human_review"

inductive RiskLevel
  | critical | high | medium | low
  deriving DecidableEq, Repr

inductive MessageRole
  | system | user | assistant | tool
  deriving DecidableEq, Repr

inductive ImChannel
  | wecom | feishu | dingtalk
  deriving DecidableEq, Repr

/-- `ImChannel(value)`, which raises `ValueError` on any other text. -/
def ImChannel.ofValue : String → Option ImChannel
  | "wecom" => some .wecom
  | "feishu" => some .feishu
  | "dingtalk" => some .dingtalk
  | _ => none

inductive HumanReviewStatus
  | sent | answered | expired | cancelled
  deriving DecidableEq, Repr

inductive AuditSampleReason
  | lowRiskRandom | qualityAudit
  deriving DecidableEq, Repr

inductive CandidateStatus
  | pending | accepted | rejected
  deriving DecidableEq, Repr

inductive ProfileUpdateStatus
  | pending | applied | rejected
  deriving DecidableEq, Repr

inductive DispositionStatus
  | suggested | confirmed | rejected
  deriving DecidableEq, Repr

inductive HealthCheckStage
  | ingestion | triage | aggregation | agent | conclusion | fullChain
  deriving DecidableEq, Repr

end Minsight

import Mathlib.Data.Rat.Defs
import Minsight.Foundation.Json
import Minsight.Foundation.Rows
import Minsight.Model.Enums

/-! # The database

One structure per table, with the columns the modelled functions read or write, and
the database as the record of all tables. Timestamps are microseconds since the
epoch in UTC and a foreign key is the position of the row it refers to.
-/

namespace Minsight

/-- Microseconds since the epoch, naive UTC. -/
abbrev Time := ℤ

structure DataSource where
  name : String
  adapterType : String := "wazuh"
  config : Json := .obj []
  cursorState : Json := .obj []
  isActive : Bool := true

structure Alert where
  dataSourceId : ℕ
  sourceAlertId : String
  fingerprint : String
  ruleId : Option String := none
  ruleName : Option String := none
  severity : ℤ := 3
  severityRaw : Option String := none
  occurredAt : Time
  ingestedAt : Time
  srcIp : Option String := none
  dstIp : Option String := none
  srcPort : Option ℤ := none
  dstPort : Option ℤ := none
  userName : Option String := none
  hostName : Option String := none
  processName : Option String := none
  processCmdline : Option String := none
  fileHash : Option String := none
  alertCategory : Option String := none
  normalizedFields : Json := .obj []
  rawData : Json := .obj []
  dedupGroupId : Option ℕ := none
  status : AlertStatus := .new

structure AlertDedupGroup where
  fingerprint : String
  firstSeenAt : Time
  lastSeenAt : Time
  occurrenceCount : ℕ := 1
  representativeAlertId : Option ℕ := none
  windowStart : Time
  windowEnd : Time

structure TriageResult where
  alertId : ℕ
  dedupHit : Bool := false
  profileHintScore : ℚ := 0
  whitelistRuleId : Option ℕ := none
  ruleScore : ℚ := 0
  llmAssistScore : Option ℚ := none
  llmCacheKey : Option String := none
  routeDecision : RouteDecision
  triagedAt : Time

structure WhitelistAuditEntry where
  source : String
  candidateId : ℕ
  investigationId : ℕ
  confirmations : ℤ

structure WhitelistRule where
  name : String
  ruleType : WhitelistRuleType
  matchPattern : Json
  confirmationCount : ℤ := 0
  effectiveFrom : Time
  effectiveUntil : Time
  status : WhitelistRuleStatus := .candidate
  auditTrail : List WhitelistAuditEntry := []

structure EntityProfile where
  entityType : EntityType
  entityKey : String
  assetCriticality : AssetCriticality := .medium
  isKnownScanner : Bool := false
  isJumpHost : Bool := false
  isDecommissioned : Bool := false

structure EntityProfileMemory where
  entityProfileId : ℕ
  memoryType : EntityMemoryType
  confidence : ℚ := 1 / 2
  validUntil : Option Time := none

structure OnDutyKnowledge where
  title : String
  scope : Json
  effectiveFrom : Time
  effectiveUntil : Option Time := none
  isActive : Bool := true

structure AuditSample where
  alertId : Option ℕ
  sampleReason : AuditSampleReason

/-- Investigation unit: alerts of one host, user, category and window. -/
structure Event where
  eventKey : String
  title : Option String := none
  primaryCategory : Option String := none
  riskScore : ℚ := 0
  alertCount : ℕ := 0
  firstAlertAt : Option Time := none
  lastAlertAt : Option Time := none
  status : EventStatus := .pendingReview
  queuePriority : ℤ := 0
  aggregateHostName : Option String := none
  aggregateUserName : Option String := none
  aggregateCategory : Option String := none
  aggregateWindowStart : Option Time := none
  correlationKey : Option String := none
  relatedEventIds : Option (List ℕ) := none
  createdAt : Time

structure EventAlert where
  eventId : ℕ
  alertId : ℕ
  addedAt : Time

structure InvestigationSop where
  alertCategory : String
  name : String
  recommendedSkills : List String := []
  hypothesisTemplate : Option Json := none
  isActive : Bool := true
  version : ℤ := 1

structure Investigation where
  eventId : ℕ
  sopId : Option ℕ := none
  status : InvestigationStatus := .running
  modelName : String
  maxSteps : ℤ := 15
  currentStep : ℕ := 0
  tokenInput : ℤ := 0
  tokenOutput : ℤ := 0
  skillCallCount : ℕ := 0
  startedAt : Time
  finishedAt : Option Time := none
  closureRequestedAt : Option Time := none
  closureRetryCount : ℕ := 0

structure InvestigationConclusion where
  investigationId : ℕ
  verdict : InvestigationVerdict
  confidence : ℚ
  riskLevel : RiskLevel
  reasoning : String
  recommendedAction : Option String := none
  evidenceRefs : List String := []
  humanQuery : Option String := none
  missingInfo : List String := []
  suggestedAssets : Json := .obj []
  hypothesesEvaluated : Option (List Json) := none
  refutationSummary : Option String := none
  evidenceClosureScore : Option ℚ := none
  refutationCoverage : Option ℚ := none
  closureChecks : Option Json := none
  closurePassed : Option Bool := none

structure InvestigationToolCall where
  investigationId : ℕ
  stepNumber : ℕ
  skillName : String
  skillInput : Json
  skillOutput : Json
  outputSummary : Option String
  success : Bool
  retryCount : ℕ
  calledAt : Time

structure InvestigationMessage where
  investigationId : ℕ
  role : MessageRole
  content : String
  toolCallId : Option String := none
  sequence : ℕ

structure HumanReviewRequest where
  /-- The hexadecimal digits of the request's UUID. -/
  uuid : String
  investigationId : ℕ
  eventId : ℕ
  channel : ImChannel
  question : String
  contextSummary : Option String := none
  status : HumanReviewStatus := .sent
  externalMsgId : Option String := none
  sentAt : Option Time := none
  answeredAt : Option Time := none

structure HumanReviewResponse where
  requestId : ℕ
  responder : Option String := none
  rawContent : String
  parsedContent : Option String := none
  triggeredReinvestigation : Bool := true
  createdAt : Time

structure DispositionRecord where
  investigationId : ℕ
  suggestedAction : String
  confirmedAction : Option String := none
  confirmedById : Option ℕ := none
  status : DispositionStatus := .suggested
  confirmedAt : Option Time := none

structure JudgmentCase where
  investigationId : ℕ
  featureSummary : String
  alertCategory : Option String := none
  entityTags : Json := .obj []
  investigationTrace : List Json := []
  verdict : InvestigationVerdict
  reasoning : String
  humanFeedback : Option String := none
  embedding : Option (List ℚ) := none

structure WhitelistCandidate where
  investigationId : ℕ
  suggestedPattern : Json
  reason : Option Json := none
  humanConfirmations : ℤ := 0
  status : WhitelistCandidateStatus := .pending
  promotedRuleId : Option ℕ := none

structure ProfileUpdateSuggestion where
  investigationId : ℕ
  entityProfileId : ℕ
  suggestedChanges : Json
  status : ProfileUpdateStatus := .pending

structure RuleCandidate where
  investigationId : ℕ
  ruleDraft : Json
  reason : Option Json := none
  status : CandidateStatus := .pending

/-- All tables. A row's key is its position in its table. -/
structure Db where
  dataSources : Rows DataSource := []
  alerts : Rows Alert := []
  alertDedupGroups : Rows AlertDedupGroup := []
  triageResults : Rows TriageResult := []
  whitelistRules : Rows WhitelistRule := []
  entityProfiles : Rows EntityProfile := []
  entityProfileMemories : Rows EntityProfileMemory := []
  onDutyKnowledge : Rows OnDutyKnowledge := []
  auditSamples : Rows AuditSample := []
  events : Rows Event := []
  eventAlerts : Rows EventAlert := []
  sops : Rows InvestigationSop := []
  investigations : Rows Investigation := []
  conclusions : Rows InvestigationConclusion := []
  toolCalls : Rows InvestigationToolCall := []
  messages : Rows InvestigationMessage := []
  requests : Rows HumanReviewRequest := []
  responses : Rows HumanReviewResponse := []
  dispositionRecords : Rows DispositionRecord := []
  judgmentCases : Rows JudgmentCase := []
  whitelistCandidates : Rows WhitelistCandidate := []
  profileSuggestions : Rows ProfileUpdateSuggestion := []
  ruleCandidates : Rows RuleCandidate := []

end Minsight

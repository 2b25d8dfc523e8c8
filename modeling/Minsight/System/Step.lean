import Minsight.Assets.Pipeline
import Minsight.Eval.HealthCheck
import Minsight.Foundation.System
import Minsight.Review.AuditSampler
import Minsight.Review.Service

/-! # The whole system

A label is one call of a service that runs to its end: its arguments, the configuration in
force and everything the outside world answers during the call. Calls do not overlap.
-/

namespace Minsight

structure Settings where
  dataSources : Rows DataSource
  whitelistRules : Rows WhitelistRule
  entityProfiles : Rows EntityProfile
  entityProfileMemories : Rows EntityProfileMemory
  onDutyKnowledge : Rows OnDutyKnowledge
  sops : Rows InvestigationSop

def Settings.apply (s : Settings) (db : Db) : Db :=
  { db with
    dataSources := s.dataSources
    whitelistRules := s.whitelistRules
    entityProfiles := s.entityProfiles
    entityProfileMemories := s.entityProfileMemories
    onDutyKnowledge := s.onDutyKnowledge
    sops := s.sops }

inductive Label
  | configure (settings : Settings)
  | ingest (env : IngestRunEnv) (dataSourceId maxBatches : ℕ) (useLock : Bool)
  | triage (config : TriageConfig) (env : TriageRunEnv) (limit : Option ℤ) (useLock : Bool)
  | aggregate (config : AggregationConfig) (env : AggregationRunEnv) (limit : Option ℤ)
      (useLock : Bool)
  | auditSample (enabled : Bool) (env : AuditSampleEnv) (limit : ℤ)
  | investigate (config : InvestigationConfig) (env : InvestigationRunEnv) (limit : Option ℤ)
      (useLock : Bool)
  | review (config : HumanReviewConfig) (env : HumanReviewRunEnv) (limit : Option ℤ)
      (useLock : Bool)
  | reply (config : HumanReviewConfig) (env : ReplyEnv) (rawContent : String)
      (externalMsgId responder : Option String) (requestId : Option ℕ)
  | cancel (commitFault : Option Exn) (requestId : ℕ)
  | settle (config : DefenseAssetConfig) (env : AssetPipelineEnv) (limit : Option ℤ)
      (useLock : Bool)
  | confirm (now : Time) (commitFault : Option Exn) (recordId : ℕ)
      (confirmedAction : Option String) (confirmedById : Option ℕ)
  | reject (now : Time) (commitFault : Option Exn) (recordId : ℕ)
  | healthCheck (config : HealthCheckConfig) (env : HealthCheckRunEnv)
      (scenarios : List HealthCheckScenario) (useLock : Bool)

def Label.oneSource : Label :=
  .configure {
    dataSources := [{ name := "siem" }]
    whitelistRules := []
    entityProfiles := []
    entityProfileMemories := []
    onDutyKnowledge := []
    sops := [] }

/-- An alert that differs from the others of a sample run in its identifiers only. -/
def sampleAlert (id : String) : NormalizedAlert where
  sourceAlertId := id
  fingerprint := id
  severity := 5
  occurredAt := 0

def Label.ingestAll (now : Time) (alerts : List NormalizedAlert) : Label :=
  .ingest { batches := [{ now, items := alerts.map .ok }] } 0 1 true

def Label.triageAll (now : Time) : Label :=
  .triage {} { items := fun _ => { dedupNow := now } } none true

def Label.aggregateAll (now : Time) : Label :=
  .aggregate {} { items := fun _ => { now } } none true

/-- A label that investigates with a model that always answers the same. -/
def Label.investigateAll (now : Time) (answer : Except Exn LlmResponse) : Label :=
  .investigate {} {
    budgetAt := now
    items := fun _ => {
      startedAt := now
      agent := { chat := fun _ _ => answer, clock := fun _ => now }
      finishedAt := now } } none true

/-- One alert is linked to an event, whose investigation ends without a conclusion. -/
def investigatedRun : List Label :=
  [.oneSource, .ingestAll 0 [sampleAlert "a-1"], .triageAll (hours 1), .aggregateAll (hours 2),
    .investigateAll (hours 3) (.error .external)]

def submits (verdict : InvestigationVerdict) (action : Option String) : LlmResponse where
  toolCalls := [{
    id := "submit"
    name := submitConclusionName
    arguments := .obj ([("verdict", .str verdict.value)] ++
      action.toList.map fun a => ("recommended_action", .str a)) }]

def Label.reviewAll (now : Time) : Label :=
  .review {} { expireAt := now, items := fun _ => { uuid := "r", now := now } } none true

def Label.replyTo (now : Time) (requestId : ℕ) : Label :=
  .reply {} { answeredAt := now } "ok" none none (some requestId)

def Label.settleAll : Label := .settle {} {} none true

def perform (rt : Runtime) : Label → Session Unit
  | .configure settings => Session.modify settings.apply
  | .ingest env source maxBatches useLock =>
    (fun _ => ()) <$> runForSource rt env source maxBatches useLock
  | .triage config env limit useLock => (fun _ => ()) <$> triageRun rt config env limit useLock
  | .aggregate config env limit useLock =>
    (fun _ => ()) <$> aggregationRun rt config env limit useLock
  | .auditSample enabled env limit => (fun _ => ()) <$> auditSampleRun enabled env limit
  | .investigate config env limit useLock =>
    (fun _ => ()) <$> investigationRun rt config env limit useLock
  | .review config env limit useLock =>
    (fun _ => ()) <$> humanReviewRun rt config env limit useLock
  | .reply config env rawContent externalMsgId responder requestId =>
    (fun _ => ()) <$> handleReply rt config env rawContent externalMsgId responder requestId
  | .cancel commitFault requestId => (fun _ => ()) <$> cancelRequest commitFault requestId
  | .settle config env limit useLock =>
    (fun _ => ()) <$> assetPipelineRun rt config env limit useLock
  | .confirm now commitFault recordId action by_ =>
    (fun _ => ()) <$> confirmDisposition rt now commitFault recordId action by_
  | .reject now commitFault recordId =>
    (fun _ => ()) <$> rejectDisposition rt now commitFault recordId
  | .healthCheck config env scenarios useLock =>
    (fun _ => ()) <$> healthCheckRun rt config env scenarios useLock

/-- The system from an initial state. Every call can be made in every state. -/
def system (rt : Runtime) (init : World) : System World Label where
  init := init
  step l w := some (Tx.exec (perform rt l) w).2

end Minsight

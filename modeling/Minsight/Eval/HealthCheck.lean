import Minsight.Eval.Probe
import Minsight.Ingestion.Service
import Minsight.Agent.Orchestrator
import Minsight.Triage.Service

/-! # Health checks

A synthetic alert is injected and driven through the pipeline up to the stage the
scenario expects.
-/

namespace Minsight

structure HealthCheckScenario where
  name : String
  expectedStage : HealthCheckStage

structure HealthCheckConfig where
  triage : TriageConfig := {}
  aggregation : AggregationConfig := {}
  investigation : InvestigationConfig := {}
  mockVerdict : InvestigationVerdict := .likelyFalsePositive

structure HealthCheckEnv where
  /-- The mapped payload of the scenario, or what mapping it raises. -/
  normalized : Except Exn NormalizedAlert
  suffix : String
  injectedAt : Time
  injectFault : Option Exn := none
  triage : TriageRunEnv
  aggregation : AggregationRunEnv
  investigation : InvestigationEnv
  commitFault : Option Exn := none

def probeFields (scenario : String) (fields : Json) : Json :=
  let fields := match fields with
    | .obj fs => fs
    | _ => []
  .obj (setField (setField fields healthProbeKey (.bool true)) "health_check_scenario"
    (.str scenario))

/-- The row `ProbeInjectService.inject` stores. -/
def probeRow (sourceId : ℕ) (now : Time) (scenario suffix : String) (n : NormalizedAlert) :
    Alert :=
  { alertRow sourceId now n with
    sourceAlertId := "healthcheck-" ++ scenario ++ "-" ++ suffix
    fingerprint := "probe-" ++ suffix ++ "-" ++ takeText 48 n.fingerprint
    normalizedFields := probeFields scenario n.normalizedFields }

/-- `HEALTH_PROBE_SOURCE_NAME` -/
def healthProbeSourceName : String := "health_probe"

/-- `HealthCheckMockLLM`: submits a fixed verdict at once. -/
def mockChat (verdict : InvestigationVerdict) : ℕ → List ChatMessage → Except Exn LlmResponse :=
  fun _ _ => .ok {
    toolCalls := [{
      id := "hc_submit"
      name := submitConclusionName
      arguments := .obj [("verdict", .str verdict.value), ("confidence", .float (9 / 10)),
        ("risk_level", .str "medium"), ("reasoning", .str "Health-check mock agent conclusion"),
        ("evidence_refs", .arr [.str "health_check:mock"])] }]
    promptTokens := 5
    completionTokens := 5 }

section

variable (rt : Runtime) (config : HealthCheckConfig)

/-- `ProbeInjectService.inject` and its commit; returns the alert. -/
def injectProbe (env : HealthCheckEnv) (scenario : HealthCheckScenario) : Session ℕ :=
  Session.transaction do
    let sources ← Session.query (·.dataSources)
    match sources.findIdx? fun s => s.name == healthProbeSourceName with
    | none => Tx.raise (.runtimeError "DataSource 'health_probe' not found; run alembic upgrade head")
    | some sourceId =>
      match env.normalized with
      | .error e => Tx.raise e
      | .ok n =>
        let now ← utcNow rt env.injectedAt
        let row := probeRow sourceId now scenario.name env.suffix n
        let alerts ← Session.query (·.alerts)
        if alerts.any (sameSourceAlert row) then Tx.raise (.integrity "uq_alerts_source_alert")
        else
          Session.modify fun db => { db with alerts := db.alerts ++ [row] }
          Tx.fallible env.injectFault
          pure alerts.length

def probeInvestigationConfig : InvestigationConfig :=
  { config.investigation with closureEnabled := false, supervisorEnabled := false }

def probeInvestigationEnv (env : HealthCheckEnv) : InvestigationEnv :=
  { env.investigation with
    agent := { env.investigation.agent with chat := mockChat config.mockVerdict } }

/-- The agent stage: the event of the alert is investigated with the mock model. -/
def investigateProbe (env : HealthCheckEnv) (alertId : ℕ) : Session Unit := do
  let links ← Session.query (·.eventAlerts)
  match links.find? fun l => l.alertId == alertId with
  | none => pure ()
  | some link =>
    Session.transaction do
      let _ ← investigateEvent rt (probeInvestigationConfig config)
        (probeInvestigationEnv config env) env.aggregation.tie link.eventId
      Tx.fallible env.commitFault

/-- `run_to_stage` -/
def runToStage (env : HealthCheckEnv) (alertId : ℕ) (target : HealthCheckStage) :
    Session Unit := do
  if target = .ingestion then pure ()
  else
    let _ ← triageRun rt config.triage env.triage (some 50) false
    if target = .triage then pure ()
    else
      let _ ← aggregationRun rt config.aggregation env.aggregation (some 50) false
      if target = .aggregation then pure ()
      else investigateProbe rt config env alertId

/-- `_run_one` -/
def healthCheckRunOne (env : HealthCheckEnv) (scenario : HealthCheckScenario) : Session Unit := do
  let alertId ← injectProbe rt env scenario
  runToStage rt config env alertId scenario.expectedStage

structure HealthCheckBatchResult where
  total : ℕ := 0
  skippedLock : Bool := false
  errors : List (String × Exn) := []

structure HealthCheckRunEnv where
  lockAcquired : Bool := true
  items : String → HealthCheckEnv

def healthCheckLoop (env : HealthCheckRunEnv) :
    Loop Exn World HealthCheckScenario Unit HealthCheckBatchResult where
  body scenario := healthCheckRunOne rt config (env.items scenario.name) scenario
  -- every transaction of a scenario has been committed or rolled back when it raises
  rollback _ w := w
  expired := rt.readAfterRollback
  onOk r _ _ := { r with total := r.total + 1 }
  onError r scenario e := { r with errors := r.errors ++ [(scenario.name, e)] }

/-- `HealthCheckRunner.run` on the active scenarios. -/
def healthCheckRun (env : HealthCheckRunEnv) (scenarios : List HealthCheckScenario)
    (useLock : Bool) : Session HealthCheckBatchResult := do
  if useLock && !env.lockAcquired then pure { skippedLock := true }
  else (healthCheckLoop rt config env).run scenarios {}

end

end Minsight

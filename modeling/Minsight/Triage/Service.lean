import Minsight.Foundation.Batch
import Minsight.Triage.Handlers

/-! # Triage pipeline and batch service -/

namespace Minsight

structure TriageRunResult where
  processed : ℕ := 0
  skippedLock : Bool := false
  errors : List (ℕ × Exn) := []

/-- What the outside world answers during one triage run. -/
structure TriageRunEnv where
  lockAcquired : Bool := true
  fetchFault : Option Exn := none
  /-- How the database orders rows that compare equal. -/
  tie : ℕ → ℕ := id
  items : ℕ → TriageEnv

section

variable (rt : Runtime) (config : TriageConfig)

/-- `TriagePipeline.run`: the handlers in order. -/
def pipelineRun (env : TriageEnv) (ctx : TriageContext) : Session TriageContext := do
  let ctx ← dedupHandle rt config env ctx
  let ctx ← whitelistHandle rt env ctx
  let ctx ← profileHintHandle rt config env ctx
  let ctx ← ruleScoreHandle rt config env ctx
  let ctx ← llmAssistHandle rt config env ctx
  persistHandle rt env (routeHandle config env ctx)

/-- `_fetch_new_alerts`: the oldest alerts that are new and have no triage result. -/
def fetchNewAlerts (tie : ℕ → ℕ) (n : ℕ) (db : Db) : List AlertSnapshot :=
  let fresh := db.alerts.select fun i a =>
    a.status == .new && !db.triageResults.any fun t => t.alertId == i
  let joined := fresh.filterMap fun (i, a) =>
    (db.dataSources[a.dataSourceId]?).map fun source =>
      { id := i, dataSourceName := source.name, row := a : AlertSnapshot }
  Rows.orderLimit (Rows.ascending (·.row.occurredAt) fun x => tie x.id) n joined

def triageLoop (env : TriageRunEnv) : Loop Exn World AlertSnapshot Unit TriageRunResult where
  body alert := do
    let _ ← pipelineRun rt config (env.items alert.id) { alert := alert }
    Tx.fallible ((env.items alert.id).faults .commit)
  rollback := Session.rollback
  expired := rt.readAfterRollback
  onOk r _ _ := { r with processed := r.processed + 1 }
  onError r alert e := { r with errors := r.errors ++ [(alert.id, e)] }

/-- `TriageService.run` -/
def triageRun (env : TriageRunEnv) (limit : Option ℤ) (useLock : Bool) :
    Session TriageRunResult := do
  if useLock && !env.lockAcquired then pure { skippedLock := true }
  else
    Session.setRedis fun o => { o with llmAssistCalls := 0 }
    let n ← sqlLimit (limitOr limit config.batchSize)
    Tx.fallible env.fetchFault
    let alerts ← Session.query (fetchNewAlerts env.tie n)
    (triageLoop rt config env).run alerts {}

end

end Minsight

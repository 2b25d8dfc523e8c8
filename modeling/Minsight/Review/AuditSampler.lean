import Minsight.Model.World

/-! # Audit sample generation -/

namespace Minsight

structure AuditSampleRunResult where
  created : ℕ := 0
  skippedDisabled : Bool := false

structure AuditSampleEnv where
  selectFault : Option Exn := none
  commitFault : Option Exn := none

/-- The archived alerts routed to sampling that have no sample yet. -/
def unsampledAlerts (db : Db) : List ℕ :=
  let archived := db.alerts.select fun i a =>
    a.status == .archived && !db.auditSamples.any fun s => s.alertId == some i
  archived.flatMap fun (i, _) =>
    (db.triageResults.filter fun t => t.alertId == i && t.routeDecision == .sampleAudit).map
      fun _ => i

/-- `AuditSampleService.run` -/
def auditSampleRun (enabled : Bool) (env : AuditSampleEnv) (limit : ℤ) :
    Session AuditSampleRunResult :=
  Session.transaction do
    if !enabled then pure { skippedDisabled := true }
    else
      let n ← sqlLimit limit
      Tx.fallible env.selectFault
      let chosen ← Session.query fun db => (unsampledAlerts db).take n
      Session.modify fun db => { db with
        auditSamples := db.auditSamples ++
          chosen.map fun i => { alertId := some i, sampleReason := .lowRiskRandom } }
      if chosen ≠ [] then Tx.fallible env.commitFault
      pure { created := chosen.length }

end Minsight

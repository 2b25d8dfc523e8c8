import Minsight.Foundation.Conflicts
import Minsight.Model.World

/-! # Ingestion

One committed batch after the other. Pulling and mapping raw documents is the adapter's
work; a batch starts from the outcome of mapping each document.
-/

namespace Minsight

structure NormalizedAlert where
  sourceAlertId : String
  fingerprint : String
  ruleId : Option String := none
  ruleName : Option String := none
  severity : ℤ := 3
  severityRaw : Option String := none
  occurredAt : Time
  srcIp : Option String := none
  dstIp : Option String := none
  srcPort : Option ℤ := none
  dstPort : Option ℤ := none
  userName : Option String := none
  hostName : Option String := none
  processName : Option String := none
  processCmdline : Option String := none
  fileHash : Option String := none
  alertCategory : Option String := none
  normalizedFields : Json := .obj []
  rawData : Json := .obj []

structure IngestBatchEnv where
  now : Time
  pullFault : Option Exn := none
  /-- The mapped document, or what mapping it raises. -/
  items : List (Except Exn NormalizedAlert)
  hasMore : Bool := false
  commitFault : Option Exn := none

structure IngestBatchResult where
  inserted : ℕ := 0
  duplicates : ℕ := 0
  mapErrors : ℕ := 0
  fetched : ℕ := 0
  hasMore : Bool := false
  errors : List Exn := []

structure IngestRunResult where
  dataSourceId : ℕ
  batches : List IngestBatchResult := []
  skippedLock : Bool := false
  skippedInactive : Bool := false
  skippedNoAdapter : Bool := false
  /-- The name of the source and what its run raised. -/
  errors : List (String × Exn) := []

def IngestRunResult.totalInserted (r : IngestRunResult) : ℕ := (r.batches.map (·.inserted)).sum

def alertRow (dataSourceId : ℕ) (now : Time) (n : NormalizedAlert) : Alert where
  dataSourceId := dataSourceId
  sourceAlertId := n.sourceAlertId
  fingerprint := n.fingerprint
  ruleId := n.ruleId
  ruleName := n.ruleName
  severity := n.severity
  severityRaw := n.severityRaw
  occurredAt := n.occurredAt
  ingestedAt := now
  srcIp := n.srcIp
  dstIp := n.dstIp
  srcPort := n.srcPort
  dstPort := n.dstPort
  userName := n.userName
  hostName := n.hostName
  processName := n.processName
  processCmdline := n.processCmdline
  fileHash := n.fileHash
  alertCategory := n.alertCategory
  normalizedFields := n.normalizedFields
  rawData := n.rawData
  status := .new

/-- `uq_alerts_source_alert` -/
def sameSourceAlert (a b : Alert) : Bool :=
  a.dataSourceId == b.dataSourceId && a.sourceAlertId == b.sourceAlertId

/-- `INSERT … ON CONFLICT DO NOTHING`, row by row. -/
def insertNew (alerts : Rows Alert) (rows : List Alert) : Rows Alert :=
  rows.foldl (fun t r => if t.any (sameSourceAlert r) then t else t ++ [r]) alerts

theorem insertNew_eq (alerts : Rows Alert) (rows : List Alert) :
    insertNew alerts rows = Conflicts.insertAbsent sameSourceAlert alerts rows := rfl

theorem sameSourceAlert_iff {a b : Alert} :
    sameSourceAlert a b = true ↔
      a.dataSourceId = b.dataSourceId ∧ a.sourceAlertId = b.sourceAlertId := by
  simp [sameSourceAlert]

theorem sameSourceAlert_refl (a : Alert) : sameSourceAlert a a = true :=
  sameSourceAlert_iff.mpr ⟨rfl, rfl⟩

section

variable (rt : Runtime)

/-- `_run_batch` -/
def runBatch (dataSourceId : ℕ) (env : IngestBatchEnv) : Session IngestBatchResult :=
  Session.transaction do
    Tx.fallible env.pullFault
    let now ← utcNow rt env.now
    let mapped := env.items.filterMap Except.toOption
    let rows := mapped.map (alertRow dataSourceId now)
    let before ← Session.query (·.alerts)
    let after := insertNew before rows
    Session.modify fun db => { db with alerts := after }
    Tx.fallible env.commitFault
    let inserted := after.length - before.length
    pure {
      inserted := inserted
      duplicates := rows.length - inserted
      mapErrors := env.items.length - mapped.length
      fetched := env.items.length
      hasMore := env.hasMore }

/-- The batches of one run: at most one per answer of the adapter, until none is left. -/
def runBatches (dataSourceId : ℕ) (result : IngestRunResult) :
    List IngestBatchEnv → Session IngestRunResult
  | [] => pure result
  | env :: envs => do
    let batch ← runBatch rt dataSourceId env
    let result := { result with batches := result.batches ++ [batch] }
    if batch.hasMore then runBatches dataSourceId result envs else pure result

structure IngestRunEnv where
  lockAcquired : Bool := true
  adapterFault : Option Exn := none
  batches : List IngestBatchEnv

/-- `IngestService.run_for_source` -/
def runForSource (env : IngestRunEnv) (dataSourceId maxBatches : ℕ) (useLock : Bool) :
    Session IngestRunResult := do
  let sources ← Session.query (·.dataSources)
  match sources[dataSourceId]? with
  | none => Tx.raise (.valueError ("DataSource not found: " ++ toString dataSourceId))
  | some source =>
    if !source.isActive then pure { dataSourceId, skippedInactive := true }
    else if useLock && !env.lockAcquired then pure { dataSourceId, skippedLock := true }
    else
      Tx.fallible env.adapterFault
      runBatches rt dataSourceId { dataSourceId } (env.batches.take maxBatches)

end

end Minsight

import Minsight.Aggregation.Key
import Minsight.Foundation.Batch
import Minsight.Triage.Handlers

/-! # Event aggregation service -/

namespace Minsight

structure AggregationRunResult where
  processed : ℕ := 0
  eventsCreated : ℕ := 0
  eventsMerged : ℕ := 0
  skippedLock : Bool := false
  errors : List (ℕ × Exn) := []

structure PendingAlert where
  alertId : ℕ
  alert : Alert
  triage : TriageResult

/-- Where the processing of one alert can fail on something outside the program. -/
inductive AggregationPoint
  | findMergeTarget | insertEvent | maxSeverity | commit
  deriving DecidableEq, Repr

structure AggregationEnv where
  now : Time
  /-- The server default of `created_at`. -/
  createdAt : Time := now
  faults : AggregationPoint → Option Exn := fun _ => none

structure AggregationRunEnv where
  lockAcquired : Bool := true
  fetchFault : Option Exn := none
  tie : ℕ → ℕ := id
  items : ℕ → AggregationEnv

/-- `_find_merge_target`: the newest event of the key that still awaits review. -/
def findMergeTarget (tie : ℕ → ℕ) (eventKey : String) (events : List (ℕ × Event)) :
    Option (ℕ × Event) :=
  (Rows.orderLimit (Rows.descending (·.2.createdAt) fun x => tie x.1) 1
    (events.filter fun e => e.2.eventKey == eventKey && e.2.status == .pendingReview)).head?

/-- The alerts linked to an event. -/
def alertsOf (links : Rows EventAlert) (eventId : ℕ) : List ℕ :=
  (links.filter fun l => l.eventId == eventId).map (·.alertId)

/-- `_max_severity_for_event` -/
def maxSeverityForEvent (db : Db) (eventId : ℕ) (currentSeverity : ℤ) : ℤ :=
  let linked := (alertsOf db.eventAlerts eventId).filterMap fun a => db.alerts[a]?
  match (linked.map (·.severity)).max? with
  | none => currentSeverity
  | some existing => max existing currentSeverity

/-- `_update_event_stats` -/
def updateEventStats (alert : Alert) (triage : TriageResult) (maxSeverity : ℤ) (event : Event) :
    Event :=
  { event with
    alertCount := event.alertCount + 1
    firstAlertAt := match event.firstAlertAt with
      | none => some alert.occurredAt
      | some t => some (min t alert.occurredAt)
    lastAlertAt := match event.lastAlertAt with
      | none => some alert.occurredAt
      | some t => some (max t alert.occurredAt)
    riskScore := max event.riskScore triage.ruleScore
    queuePriority := max event.queuePriority (routePriority triage.routeDecision)
    title := some (buildEventTitle event.aggregateCategory event.aggregateHostName
      event.aggregateUserName (event.alertCount + 1) maxSeverity) }

def newEvent (alert : Alert) (dims : AggregationDimensions) (createdAt : Time) : Event where
  eventKey := dims.eventKey
  primaryCategory := alert.alertCategory
  aggregateHostName := alert.hostName
  aggregateUserName := alert.userName
  aggregateCategory := alert.alertCategory
  aggregateWindowStart := some dims.windowStart
  createdAt := createdAt

def recordLink (item : PendingAlert) (eventId : ℕ) (now : Time) (maxSeverity : ℤ) (db : Db) : Db :=
  { db with
    eventAlerts := db.eventAlerts ++
      [{ eventId := eventId, alertId := item.alertId, addedAt := now }]
    alerts := db.alerts.modify item.alertId fun a => { a with status := .eventLinked }
    events := db.events.modify eventId (updateEventStats item.alert item.triage maxSeverity) }

section

variable (rt : Runtime) (config : AggregationConfig)

/-- The event the alert goes to, and whether it was created for it. -/
def eventFor (env : AggregationEnv) (tie : ℕ → ℕ) (alert : Alert)
    (dims : AggregationDimensions) : Session (ℕ × Bool) := do
  Tx.fallible (env.faults .findMergeTarget)
  let events ← Session.query (·.events)
  match findMergeTarget tie dims.eventKey (events.select fun _ _ => true) with
  | some (eventId, _) => pure (eventId, false)
  | none =>
    let createdAt ← utcNow rt env.createdAt
    Tx.fallible (env.faults .insertEvent)
    Session.modify fun db => { db with events := db.events ++ [newEvent alert dims createdAt] }
    pure (events.length, true)

/-- `_aggregate_one`; true when a new event was created. -/
def aggregateOne (env : AggregationEnv) (tie : ℕ → ℕ) (item : PendingAlert) : Session Bool := do
  let alert := item.alert
  let now ← utcNow rt env.now
  match normalizeDimensions rt config alert.hostName alert.userName alert.alertCategory
      alert.occurredAt with
  | .error e => Tx.raise e
  | .ok dims =>
    let (eventId, created) ← eventFor rt env tie alert dims
    Tx.fallible (env.faults .maxSeverity)
    let maxSeverity ← Session.query fun db => maxSeverityForEvent db eventId alert.severity
    let linked ← Session.query fun db => db.eventAlerts.any fun l => l.alertId == item.alertId
    if linked then Tx.raise (.integrity "uq_event_alerts_alert_id")
    else
      Session.modify (recordLink item eventId now maxSeverity)
      pure created

/-- `_fetch_pending`: the oldest queued alerts that are linked to no event. -/
def fetchPending (tie : ℕ → ℕ) (n : ℕ) (db : Db) : List PendingAlert :=
  let triaged := db.alerts.select fun i a =>
    a.status == .triaged && !db.eventAlerts.any fun l => l.alertId == i
  let joined := triaged.flatMap fun (i, a) =>
    (db.triageResults.filter fun t => t.alertId == i && t.routeDecision.isQueue).map fun t =>
      { alertId := i, alert := a, triage := t : PendingAlert }
  Rows.orderLimit (Rows.ascending (·.alert.occurredAt) fun x => tie x.alertId) n joined

def aggregationLoop (env : AggregationRunEnv) :
    Loop Exn World PendingAlert Bool AggregationRunResult where
  body item := do
    let created ← aggregateOne rt config (env.items item.alertId) env.tie item
    Tx.fallible ((env.items item.alertId).faults .commit)
    pure created
  rollback := Session.rollback
  expired := rt.readAfterRollback
  onOk r _ created := { r with
    processed := r.processed + 1
    eventsCreated := if created then r.eventsCreated + 1 else r.eventsCreated
    eventsMerged := if created then r.eventsMerged else r.eventsMerged + 1 }
  onError r item e := { r with errors := r.errors ++ [(item.alertId, e)] }

/-- `AggregationService.run` -/
def aggregationRun (env : AggregationRunEnv) (limit : Option ℤ) (useLock : Bool) :
    Session AggregationRunResult := do
  if useLock && !env.lockAcquired then pure { skippedLock := true }
  else
    let n ← sqlLimit (limitOr limit config.batchSize)
    Tx.fallible env.fetchFault
    let pending ← Session.query (fetchPending env.tie n)
    (aggregationLoop rt config env).run pending {}

end

end Minsight

import Minsight.Agent.Orchestrator
import Minsight.Foundation.Connections

/-! # Aggregation and investigation runs side by side

An aggregation transaction looks its event up and writes the event's new statistics when it
commits. An investigation marks its event, reads the event's alerts and commits with its verdict.
Runs under a Redis lock exclude one another as long as the lock lasts, and the runs of a health
check take no lock; nothing here needs one.
-/

namespace Minsight

open Program

inductive JobRow
  | event (id : ℕ) | alert (id : ℕ)
  /-- The key of `uq_event_alerts_alert_id`. -/
  | link (alertId : ℕ)
  deriving DecidableEq

structure Verdict where
  eventId : ℕ
  /-- The alerts its context was built from. -/
  alerts : List ℕ
  /-- The alerts that were linked to the event when it committed. -/
  linked : List ℕ
  deriving DecidableEq

structure JobStore where
  db : Db
  verdicts : List Verdict := []

inductive JobWrite
  | insertEvent (event : Event)
  /-- `UPDATE events`; without a key it is the event that the transaction has inserted. -/
  | updateEvent (target : Option ℕ) (old new : Event)
  | updateAlert (alertId : ℕ)
  | insertLink (target : Option ℕ) (alertId : ℕ) (addedAt : Time)
  | insertInvestigation (row : Investigation)
  | markEvent (eventId : ℕ)
  | recordOutcome (eventId : ℕ) (alerts : List ℕ) (finishedAt : Time) (result : AgentLoopResult)

/-- What an `UPDATE` makes of a column: it is set only where the session changed it. -/
def flushColumn {α : Type} [DecidableEq α] (old new current : α) : α :=
  if new = old then current else new

/-- The `UPDATE` of an event's statistics, from the event as it was loaded and as it is now. -/
def flushStats (old new current : Event) : Event :=
  { current with
    alertCount := flushColumn old.alertCount new.alertCount current.alertCount
    firstAlertAt := flushColumn old.firstAlertAt new.firstAlertAt current.firstAlertAt
    lastAlertAt := flushColumn old.lastAlertAt new.lastAlertAt current.lastAlertAt
    riskScore := flushColumn old.riskScore new.riskScore current.riskScore
    queuePriority := flushColumn old.queuePriority new.queuePriority current.queuePriority
    title := flushColumn old.title new.title current.title }

/-- The key of an event that is in the database or was inserted last. -/
def targetKey (target : Option ℕ) (db : Db) : ℕ := target.getD (db.events.length - 1)

def JobWrite.apply : JobWrite → JobStore → JobStore
  | .insertEvent event, s => { s with db := { s.db with events := s.db.events ++ [event] } }
  | .updateEvent target old new, s => { s with db := { s.db with
      events := s.db.events.modify (targetKey target s.db) (flushStats old new) } }
  | .updateAlert alertId, s => { s with db := { s.db with
      alerts := s.db.alerts.modify alertId fun a => { a with status := .eventLinked } } }
  | .insertLink target alertId addedAt, s => { s with db := { s.db with
      eventAlerts := s.db.eventAlerts ++
        [{ eventId := targetKey target s.db, alertId, addedAt }] } }
  | .insertInvestigation row, s => { s with db := s.db.addInvestigation row }
  | .markEvent eventId, s => { s with db := s.db.setEventStatus eventId .investigating }
  | .recordOutcome eventId alerts finishedAt result, s => {
      db := Minsight.recordOutcome (s.db.investigations.length - 1) eventId finishedAt result s.db
      verdicts := s.verdicts ++
        [{ eventId, alerts, linked := alertsOf s.db.eventAlerts eventId }] }

def JobWrite.row : JobWrite → Option JobRow
  | .updateEvent target _ _ => target.map .event
  | .updateAlert alertId => some (.alert alertId)
  | .insertLink _ alertId _ => some (.link alertId)
  | .markEvent eventId | .recordOutcome eventId _ _ _ => some (.event eventId)
  | .insertEvent _ | .insertInvestigation _ => none

structure AggregationJob where
  config : AggregationConfig := {}
  tie : ℕ → ℕ := id
  limit : ℕ

structure InvestigationJob where
  config : InvestigationConfig := {}
  tie : ℕ → ℕ := id
  limit : ℕ

/-- An alert on its way to an event, from the lookup of the event on. -/
structure Placement where
  item : PendingAlert
  now : Time
  eventKey : String
  /-- The event that was found; if there was none, one is created. -/
  target : Option ℕ
  /-- The event as it was loaded or as it is created. -/
  event : Event
  /-- How many links and investigations there were at the lookup, for an observer. -/
  links : ℕ
  investigations : ℕ

/-- The statement of `_aggregate_one`, or of the flush after it, that is next. -/
inductive PlacingStage
  | insertEvent | maxSeverity
  | updateEvent (maxSeverity : ℤ) | updateAlert (maxSeverity : ℤ) | insertLink (maxSeverity : ℤ)
  | commit (maxSeverity : ℤ)

/-- The statement of `_investigate_event` that is next. -/
inductive ExaminingStage
  | markEvent | readAlerts
  | conclude (alerts : List ℕ)
  | commit (alerts : List ℕ) (finishedAt : Time) (result : AgentLoopResult)

inductive JobPoint
  | aggregating (job : AggregationJob)
  | nextAlert (job : AggregationJob) (items : List PendingAlert)
  | placing (job : AggregationJob) (items : List PendingAlert) (p : Placement)
    (stage : PlacingStage)
  | investigating (job : InvestigationJob)
  | nextEvent (job : InvestigationJob) (events : List ℕ)
  | examining (job : InvestigationJob) (events : List ℕ) (row : Investigation)
    (stage : ExaminingStage)
  | done

inductive JobAnswer
  /-- It succeeds, and the clock shows a time. -/
  | now (t : Time)
  /-- The agent loop ends, and the supervisor with it. -/
  | verdict (finishedAt : Time) (result : AgentLoopResult)
  /-- It fails, and the run goes on or ends. -/
  | fault (stops : Bool)

/-- The event after `_update_event_stats`. -/
def Placement.updated (p : Placement) (maxSeverity : ℤ) : Event :=
  updateEventStats p.item.alert p.item.triage maxSeverity p.event

def JobPoint.afterRollback : JobPoint → JobPoint
  | .nextAlert job items => .nextAlert job items.tail
  | .placing job items _ _ => .nextAlert job items
  | .nextEvent job events => .nextEvent job events.tail
  | .examining job events _ _ => .nextEvent job events
  | _ => .done

/--
The statements of `AggregationService.run` and `InvestigationOrchestrator.run`. The writes of an
alert are flushed when its transaction commits; the mark on an event is flushed before the
event's alerts are read. The agent's messages and tool calls, which belong to its own
investigation, are left out.
-/
def jobStatement (rt : Runtime) : JobAnswer → JobStore → JobPoint →
    Option (Statement JobWrite JobPoint)
  | _, _, .done => none
  | .fault stops, _, point => some (.abort (if stops then .done else point.afterRollback))
  | .now _, s, .aggregating job =>
    some (.read (.nextAlert job (fetchPending job.tie job.limit s.db)))
  | .now _, _, .nextAlert _ [] => some (.commit .done)
  | .now t, s, .nextAlert job (item :: items) =>
    match normalizeDimensions rt job.config item.alert.hostName item.alert.userName
        item.alert.alertCategory item.alert.occurredAt with
    | .error _ => some (.abort (.nextAlert job items))
    | .ok dims =>
      let place (target : Option ℕ) (event : Event) : Placement := {
        item := item
        now := t
        eventKey := dims.eventKey
        target := target
        event := event
        links := s.db.eventAlerts.length
        investigations := s.db.investigations.length }
      match findMergeTarget job.tie dims.eventKey (s.db.events.select fun _ _ => true) with
      | some (e, event) => some (.read (.placing job items (place (some e) event) .maxSeverity))
      | none =>
        some (.read (.placing job items (place none (newEvent item.alert dims t)) .insertEvent))
  | .now t, _, .placing job items p .insertEvent =>
    let event := { p.event with createdAt := t }
    some (.write [.insertEvent event] (.placing job items { p with event := event } .maxSeverity))
  | .now _, s, .placing job items p .maxSeverity =>
    let maxSeverity := maxSeverityForEvent s.db (targetKey p.target s.db) p.item.alert.severity
    some (.read (.placing job items p (.updateEvent maxSeverity)))
  | .now _, _, .placing job items p (.updateEvent m) =>
    some (.write [.updateEvent p.target p.event (p.updated m)]
      (.placing job items p (.updateAlert m)))
  | .now _, _, .placing job items p (.updateAlert m) =>
    some (.write [.updateAlert p.item.alertId] (.placing job items p (.insertLink m)))
  | .now _, s, .placing job items p (.insertLink m) =>
    -- the unique key refuses a second link
    if s.db.eventAlerts.any fun l => l.alertId == p.item.alertId then
      some (.abort (.nextAlert job items))
    else some (.write [.insertLink p.target p.item.alertId p.now]
      (.placing job items p (.commit m)))
  | .now _, _, .placing job items _ (.commit _) => some (.commit (.nextAlert job items))
  | .now _, s, .investigating job =>
    some (.read (.nextEvent job (pickEvents job.tie job.limit s.db)))
  | .now _, _, .nextEvent _ [] => some (.commit .done)
  | .now t, _, .nextEvent job (e :: events) =>
    let row := newInvestigation job.config e t
    some (.write [.insertInvestigation row] (.examining job events row .markEvent))
  | .now _, _, .examining job events row .markEvent =>
    some (.write [.markEvent row.eventId] (.examining job events row .readAlerts))
  | .now _, s, .examining job events row .readAlerts =>
    match s.db.events[row.eventId]? with
    | none => some (.abort (.nextEvent job events))
    | some _ => some (.read (.examining job events row
        (.conclude (alertsOf s.db.eventAlerts row.eventId))))
  | .verdict t result, _, .examining job events row (.conclude alerts) =>
    some (.write [.recordOutcome row.eventId alerts t result]
      (.examining job events row (.commit alerts t result)))
  | .now _, _, .examining job events _ (.commit ..) => some (.commit (.nextEvent job events))
  | _, _, _ => none

def jobProgram (rt : Runtime) : Program JobStore JobRow JobWrite JobPoint JobAnswer where
  apply := JobWrite.apply
  row := JobWrite.row
  statement := jobStatement rt

/-- What a run can do at a point, and what it has seen of the database when it does it. -/
inductive JobMove (s : JobStore) : JobPoint → Statement JobWrite JobPoint → Prop
  | stop (point : JobPoint) : JobMove s point (.abort .done)
  | rollback (point : JobPoint) : JobMove s point (.abort point.afterRollback)
  | fetch (job : AggregationJob) (items : List PendingAlert) :
      JobMove s (.aggregating job) (.read (.nextAlert job items))
  | lastAlert (job : AggregationJob) : JobMove s (.nextAlert job []) (.commit .done)
  | skipAlert (job : AggregationJob) (item : PendingAlert) (items : List PendingAlert) :
      JobMove s (.nextAlert job (item :: items)) (.abort (.nextAlert job items))
  | findEvent {job : AggregationJob} {item : PendingAlert} {items : List PendingAlert}
      {p : Placement} {e : ℕ}
      (found : findMergeTarget job.tie p.eventKey (s.db.events.select fun _ _ => true) =
        some (e, p.event))
      (target : p.target = some e) (links : p.links = s.db.eventAlerts.length)
      (investigations : p.investigations = s.db.investigations.length) :
      JobMove s (.nextAlert job (item :: items)) (.read (.placing job items p .maxSeverity))
  | createEvent {job : AggregationJob} {item : PendingAlert} {items : List PendingAlert}
      {p : Placement}
      (missing : findMergeTarget job.tie p.eventKey (s.db.events.select fun _ _ => true) = none)
      (target : p.target = none) (links : p.links = s.db.eventAlerts.length)
      (investigations : p.investigations = s.db.investigations.length)
      (event : p.event.eventKey = p.eventKey ∧ p.event.status = .pendingReview ∧
        p.event.alertCount = 0) :
      JobMove s (.nextAlert job (item :: items)) (.read (.placing job items p .insertEvent))
  | insertEvent (job : AggregationJob) (items : List PendingAlert) (p : Placement) (t : Time) :
      JobMove s (.placing job items p .insertEvent)
        (.write [.insertEvent { p.event with createdAt := t }]
          (.placing job items { p with event := { p.event with createdAt := t } } .maxSeverity))
  | maxSeverity (job : AggregationJob) (items : List PendingAlert) (p : Placement) (m : ℤ) :
      JobMove s (.placing job items p .maxSeverity) (.read (.placing job items p (.updateEvent m)))
  | updateEvent (job : AggregationJob) (items : List PendingAlert) (p : Placement) (m : ℤ) :
      JobMove s (.placing job items p (.updateEvent m))
        (.write [.updateEvent p.target p.event (p.updated m)]
          (.placing job items p (.updateAlert m)))
  | updateAlert (job : AggregationJob) (items : List PendingAlert) (p : Placement) (m : ℤ) :
      JobMove s (.placing job items p (.updateAlert m))
        (.write [.updateAlert p.item.alertId] (.placing job items p (.insertLink m)))
  | refuseLink (job : AggregationJob) (items : List PendingAlert) (p : Placement) (m : ℤ) :
      JobMove s (.placing job items p (.insertLink m)) (.abort (.nextAlert job items))
  | insertLink {job : AggregationJob} {items : List PendingAlert} {p : Placement} {m : ℤ}
      (free : ∀ l ∈ s.db.eventAlerts, l.alertId ≠ p.item.alertId) :
      JobMove s (.placing job items p (.insertLink m))
        (.write [.insertLink p.target p.item.alertId p.now] (.placing job items p (.commit m)))
  | commitPlacement (job : AggregationJob) (items : List PendingAlert) (p : Placement) (m : ℤ) :
      JobMove s (.placing job items p (.commit m)) (.commit (.nextAlert job items))
  | pick (job : InvestigationJob) (events : List ℕ) :
      JobMove s (.investigating job) (.read (.nextEvent job events))
  | lastEvent (job : InvestigationJob) : JobMove s (.nextEvent job []) (.commit .done)
  | insertInvestigation (job : InvestigationJob) (e : ℕ) (events : List ℕ) (row : Investigation) :
      JobMove s (.nextEvent job (e :: events))
        (.write [.insertInvestigation row] (.examining job events row .markEvent))
  | markEvent (job : InvestigationJob) (events : List ℕ) (row : Investigation) :
      JobMove s (.examining job events row .markEvent)
        (.write [.markEvent row.eventId] (.examining job events row .readAlerts))
  | missEvent (job : InvestigationJob) (events : List ℕ) (row : Investigation) :
      JobMove s (.examining job events row .readAlerts) (.abort (.nextEvent job events))
  | readAlerts {job : InvestigationJob} {events : List ℕ} {row : Investigation}
      (present : row.eventId < s.db.events.length) :
      JobMove s (.examining job events row .readAlerts)
        (.read (.examining job events row (.conclude (alertsOf s.db.eventAlerts row.eventId))))
  | conclude (job : InvestigationJob) (events : List ℕ) (row : Investigation) (alerts : List ℕ)
      (t : Time) (result : AgentLoopResult) :
      JobMove s (.examining job events row (.conclude alerts))
        (.write [.recordOutcome row.eventId alerts t result]
          (.examining job events row (.commit alerts t result)))
  | commitOutcome (job : InvestigationJob) (events : List ℕ) (row : Investigation)
      (alerts : List ℕ) (t : Time) (result : AgentLoopResult) :
      JobMove s (.examining job events row (.commit alerts t result))
        (.commit (.nextEvent job events))

theorem jobMove_of_statement {rt : Runtime} {a : JobAnswer} {s : JobStore} {point : JobPoint}
    {st : Statement JobWrite JobPoint} (h : jobStatement rt a s point = some st) :
    JobMove s point st := by
  unfold jobStatement at h
  split at h
  · cases h
  · obtain rfl := Option.some.inj h
    split
    · exact .stop _
    · exact .rollback _
  · cases h
    exact .fetch _ _
  · cases h
    exact .lastAlert _
  · split at h
    · cases h
      exact .skipAlert _ _ _
    · dsimp only at h
      split at h
      · rename_i hfound
        cases h
        exact .findEvent hfound rfl rfl rfl
      · rename_i hmissing
        cases h
        exact .createEvent hmissing rfl rfl rfl ⟨rfl, rfl, rfl⟩
  · cases h
    exact .insertEvent _ _ _ _
  · cases h
    exact .maxSeverity _ _ _ _
  · cases h
    exact .updateEvent _ _ _ _
  · cases h
    exact .updateAlert _ _ _ _
  · split at h
    · cases h
      exact .refuseLink _ _ _ _
    · rename_i hfree
      cases h
      refine .insertLink fun l hl hlinked => ?_
      exact hfree (List.any_eq_true.mpr ⟨l, hl, beq_iff_eq.mpr hlinked⟩)
  · cases h
    exact .commitPlacement _ _ _ _
  · cases h
    exact .pick _ _
  · cases h
    exact .lastEvent _
  · cases h
    exact .insertInvestigation _ _ _ _
  · cases h
    exact .markEvent _ _ _
  · split at h
    · cases h
      exact .missEvent _ _ _
    · rename_i hevent
      cases h
      exact .readAlerts (Rows.lt_of_getElem? hevent)
  · cases h
    exact .conclude _ _ _ _ _ _
  · cases h
    exact .commitOutcome _ _ _ _ _ _
  · cases h

inductive Job
  | aggregate (job : AggregationJob)
  | investigate (job : InvestigationJob)

def Job.start : Job → JobPoint
  | .aggregate job => .aggregating job
  | .investigate job => .investigating job

def jobInit (db : Db) (jobs : List Job) : Shared JobStore JobWrite JobPoint where
  db := { db := db }
  connections := jobs.map fun job => { point := job.start }

/-- The interleavings of some runs. -/
def jobSystem (rt : Runtime) (db : Db) (jobs : List Job) :
    System (Shared JobStore JobWrite JobPoint) (ℕ × JobAnswer) :=
  (jobProgram rt).system (jobInit db jobs)

def queuedAlert (id : String) : Alert where
  dataSourceId := 0
  sourceAlertId := id
  fingerprint := id
  occurredAt := 0
  ingestedAt := 0
  status := .triaged

def queuedTriage (alertId : ℕ) : TriageResult where
  alertId := alertId
  routeDecision := .queueDeepReview
  triagedAt := 0

/-- Two alerts of one key wait for aggregation. -/
def twoQueuedAlerts : Db where
  alerts := [queuedAlert "a-1", queuedAlert "a-2"]
  triageResults := [queuedTriage 0, queuedTriage 1]

/-- The first alert has its event, and the second waits for aggregation. -/
def oneQueuedAlert : Db where
  alerts := [{ queuedAlert "a-1" with status := .eventLinked }, queuedAlert "a-2"]
  triageResults := [queuedTriage 0, queuedTriage 1]
  events := [{
    eventKey := "767ec2b83b4866005499a20e4586ded1"
    title := some "[uncategorized] unknown-host / unknown-user (1 alerts, max_severity=3)"
    alertCount := 1
    firstAlertAt := some 0
    lastAlertAt := some 0
    queuePriority := 10
    createdAt := 0 }]
  eventAlerts := [{ eventId := 0, alertId := 0, addedAt := 0 }]

/-- The event of the first alert gets two more. -/
def twoMoreAlerts : Db :=
  { oneQueuedAlert with
    alerts := oneQueuedAlert.alerts ++ [queuedAlert "a-3"]
    triageResults := oneQueuedAlert.triageResults ++ [queuedTriage 2] }

end Minsight

import Minsight.Agent.Supervisor
import Minsight.Aggregation.Service
import Minsight.Eval.Probe
import Minsight.Review.Stale

/-! # Investigation orchestration -/

namespace Minsight

structure InvestigationRunResult where
  processed : ℕ := 0
  skippedLock : Bool := false
  skippedBudget : Bool := false
  errors : List (ℕ × Exn) := []

/-- Where one investigation can fail on something outside the program. -/
inductive InvestigationPoint
  | flush | snapshot | context | refresh | cancelObsolete | budget
  | markerGet | markerDelete | counterIncr | counterExpire | commit
  deriving DecidableEq, Repr

/-- What the outside world answers during one investigation. -/
structure InvestigationEnv where
  startedAt : Time
  /-- The clock when the agent loop is started. -/
  agentAt : Time := startedAt
  agent : AgentEnv
  finishedAt : Time
  /-- The clock when the skip marker is read. -/
  markerAt : Time := finishedAt
  /-- The clock when the daily counter is advanced. -/
  countedAt : Time := markerAt
  faults : InvestigationPoint → Option Exn := fun _ => none

structure InvestigationRunEnv where
  lockAcquired : Bool := true
  budgetAt : Time
  pickFault : Option Exn := none
  tie : ℕ → ℕ := id
  items : ℕ → InvestigationEnv

/-- `VERDICT_EVENT_STATUS` -/
def verdictEventStatus : InvestigationVerdict → EventStatus
  | .attackConfirmed => .concluded
  | .likelyFalsePositive => .concluded
  | .insufficientInformation => .humanPending
  | .needsHumanReview => .humanPending

def hasSkipMarker (out : Outside) (eventId : ℕ) (now : Time) : Bool :=
  match out.skipBudget eventId with
  | some expiry => decide (now < expiry)
  | none => false

/-- `budget_remaining`. A counter outlives its day, so its expiry is never seen. -/
def budgetRemaining (rt : Runtime) (shown : Time) (dailyBudget : ℤ) : Session ℤ := do
  let now ← utcNow rt shown
  let count ← Session.redis fun o => o.dailyCount (utcDay now)
  pure (max 0 (dailyBudget - count))

/-- `increment_daily_count`; the start it counts is marked in the observer's log. -/
def incrementDailyCount (rt : Runtime) (shown : Time) (faults : InvestigationPoint → Option Exn)
    (start : ℕ) : Session Unit := do
  let now ← utcNow rt shown
  Tx.fallible (faults .counterIncr)
  let count ← Session.redis fun o => o.dailyCount (utcDay now) + 1
  Session.setRedis fun o => { o with
    dailyCount := Function.update o.dailyCount (utcDay now) count
    agentStarts := o.agentStarts.modify start fun a => { a with counted := true } }
  -- the first of a day sets the expiry of the key
  if count = 1 then Tx.fallible (faults .counterExpire)

/-- `mark_reinvestigation` -/
def markReinvestigation (now : Time) (eventId : ℕ) : Session Unit :=
  Session.setRedis fun o => { o with
    skipBudget := Function.update o.skipBudget eventId (some (now + hours 24)) }

/-- `consume_skip_budget` -/
def consumeSkipBudget (rt : Runtime) (shown : Time) (faults : InvestigationPoint → Option Exn)
    (eventId : ℕ) : Session Bool := do
  let now ← utcNow rt shown
  Tx.fallible (faults .markerGet)
  let marked ← Session.redis fun o => hasSkipMarker o eventId now
  if marked then
    Tx.fallible (faults .markerDelete)
    Session.setRedis fun o => { o with skipBudget := Function.update o.skipBudget eventId none }
  pure marked

/-- The condition of `_pick_events` on an event. -/
def isPickable (db : Db) (eventId : ℕ) (event : Event) : Bool :=
  event.status == .pendingReview
    && !(db.investigations.any fun i =>
      i.eventId == eventId && (i.status == .running || i.status == .completed))
    && !eventIsProbe db eventId

/-- Ascending order with `NULL` last. -/
def compareTimes : Option Time → Option Time → Ordering
  | some a, some b => compare a b
  | some _, none => .lt
  | none, some _ => .gt
  | none, none => .eq

theorem compareTimes_eq (a b : Option Time) :
    compareTimes a b = compare (Rows.nullHigh a) (Rows.nullHigh b) := by
  cases a with
  | none =>
    cases b with
    | none => rfl
    | some b => exact (compare_gt_iff_gt.mpr (WithTop.coe_lt_top b)).symm
  | some a =>
    cases b with
    | none => exact (compare_lt_iff_lt.mpr (WithTop.coe_lt_top a)).symm
    | some b =>
      simp only [compareTimes, Rows.nullHigh, Option.elim_some]
      rcases lt_trichotomy a b with h | rfl | h
      · rw [compare_lt_iff_lt.mpr h, compare_lt_iff_lt.mpr (WithTop.coe_lt_coe.mpr h)]
      · rw [compare_eq_iff_eq.mpr rfl, compare_eq_iff_eq.mpr rfl]
      · rw [compare_gt_iff_gt.mpr h, compare_gt_iff_gt.mpr (WithTop.coe_lt_coe.mpr h)]

/-- `queue_priority DESC, risk_score DESC, last_alert_at ASC` -/
def queueOrder (tie : ℕ → ℕ) (x y : ℕ × Event) : Ordering :=
  (compare y.2.queuePriority x.2.queuePriority).then <|
    (compare y.2.riskScore x.2.riskScore).then <|
      (compareTimes x.2.lastAlertAt y.2.lastAlertAt).then <| compare (tie x.1) (tie y.1)

/-- `_pick_events` -/
def pickEvents (tie : ℕ → ℕ) (n : ℕ) (db : Db) : List ℕ :=
  (Rows.orderLimit (fun x y => (queueOrder tie x y).isLE) n
    (db.events.select (isPickable db))).map Prod.fst

/-- The active procedure of the event's category with the highest version. -/
def activeSop (tie : ℕ → ℕ) (db : Db) (category : Option String) :
    Option (ℕ × InvestigationSop) :=
  match truthyText category with
  | none => none
  | some c =>
    (Rows.orderLimit (Rows.descending (·.2.version) fun x => tie x.1) 1
      (db.sops.select fun _ s => s.alertCategory == c && s.isActive)).head?

/-- `build_investigation_context` -/
def buildInvestigationContext (tie : ℕ → ℕ) (config : InvestigationConfig)
    (investigationId eventId : ℕ) (event : Event) (db : Db) : InvestigationContext where
  investigationId := investigationId
  eventId := eventId
  event := event
  alerts :=
    let linked := (alertsOf db.eventAlerts eventId).filterMap fun a =>
      (db.alerts[a]?).map fun row => (a, row)
    let sorted := linked.insertionSort fun x y =>
      x.2.occurredAt < y.2.occurredAt ∨ x.2.occurredAt = y.2.occurredAt ∧ tie x.1 ≤ tie y.1
    (sliceList config.alertPromptLimit sorted).map Prod.fst
  sop := activeSop tie db event.primaryCategory
  modelName := config.modelName

/-- `_persist_conclusion` -/
def conclusionRow (investigationId : ℕ) (c : ConclusionPayload) (closure : Option ClosureResult) :
    InvestigationConclusion where
  investigationId := investigationId
  verdict := c.verdict
  confidence := c.confidence
  riskLevel := c.riskLevel
  reasoning := c.reasoning
  recommendedAction := c.recommendedAction
  evidenceRefs := c.evidenceRefs
  humanQuery := c.humanQuery
  missingInfo := c.missingInfo
  suggestedAssets := c.suggestedAssets.dump
  hypothesesEvaluated := if c.hypothesesEvaluated.isEmpty then none else some c.hypothesesEvaluated
  refutationSummary := c.refutationSummary
  evidenceClosureScore := closure.map (·.evidenceClosureScore)
  refutationCoverage := closure.map (·.refutationCoverage)
  closureChecks := closure.map (·.checks)
  closurePassed := closure.map (·.passed)

section

variable (rt : Runtime) (config : InvestigationConfig)

/-- The loop's result after the supervisor, who may replace the conclusion. -/
def supervised (toolCalls : List InvestigationToolCall) (recommendedSkills : List String)
    (result : AgentLoopResult) : AgentLoopResult :=
  if config.supervisorEnabled then
    let sup := audit rt result.conclusion toolCalls
      { enabled := true, blockOnFail := config.supervisorBlockOnFail } recommendedSkills
    if config.supervisorBlockOnFail && !sup.passed then
      { result with
        conclusion := degradedConclusion "监督审计未通过，需人工复核。"
        investigationStatus := .needsHuman }
    else result
  else result

def finalStatus (result : AgentLoopResult) : InvestigationStatus :=
  if verdictEventStatus result.conclusion.verdict = .humanPending then .needsHuman
  else result.investigationStatus

def suggestedDispositions (investigationId : ℕ) (action : Option String) :
    List DispositionRecord :=
  (truthyText action).toList.map fun action => { investigationId, suggestedAction := action }

def recordOutcome (investigationId eventId : ℕ) (finishedAt : Time) (result : AgentLoopResult)
    (db : Db) : Db :=
  let eventStatus := verdictEventStatus result.conclusion.verdict
  { db with
    investigations := db.investigations.modify investigationId fun i => { i with
      status := finalStatus result
      finishedAt := some finishedAt }
    events := db.events.modify eventId fun e => { e with status := eventStatus }
    conclusions := db.conclusions ++
      [conclusionRow investigationId result.conclusion result.closureResult]
    requests := db.requests.map (cancelObsoleteForEvent eventId investigationId eventStatus)
    dispositionRecords := db.dispositionRecords ++
      suggestedDispositions investigationId result.conclusion.recommendedAction }

def logAgentStart (shown : Time) (eventId : ℕ) : Session ℕ := do
  let now ← utcNow rt shown
  let probe ← Session.query fun db => eventIsProbe db eventId
  let exempt ← Session.redis fun o => hasSkipMarker o eventId now
  let start ← Session.redis fun o => o.agentStarts.length
  Session.setRedis fun o => { o with
    agentStarts := o.agentStarts ++ [{ eventId, startedAt := now, probe, exempt }] }
  pure start

def newInvestigation (eventId : ℕ) (now : Time) : Investigation where
  eventId := eventId
  modelName := config.modelName
  maxSteps := config.maxSteps
  startedAt := now

/-- The investigation is inserted and its event is marked; returns the investigation. -/
def startInvestigation (env : InvestigationEnv) (eventId : ℕ) : Session ℕ := do
  let now ← utcNow rt env.startedAt
  let investigationId ← Session.query fun db => db.investigations.length
  Session.modify (Db.addInvestigation (newInvestigation config eventId now))
  Tx.fallible (env.faults .flush)
  Session.modify (Db.setEventStatus eventId .investigating)
  Tx.fallible (env.faults .snapshot)
  Tx.fallible (env.faults .context)
  pure investigationId

/-- `_investigate_event`; returns the log position of the start of its agent loop. -/
def investigateEvent (env : InvestigationEnv) (tie : ℕ → ℕ) (eventId : ℕ) : Session ℕ := do
  let investigationId ← startInvestigation rt config env eventId
  let db ← Session.query id
  match db.events[eventId]? with
  | none => Tx.raise (.valueError "No row was found when one was required")
  | some event =>
    let ctx := buildInvestigationContext tie config investigationId eventId event db
    updateInvestigation investigationId fun i => { i with sopId := ctx.sop.map Prod.fst }
    let start ← logAgentStart rt env.agentAt eventId
    let loopResult ← agentRun rt config env.agent ctx
    Session.statement (env.faults .refresh)
    let toolCalls ← Session.query fun db =>
      db.toolCalls.filter fun tc => tc.investigationId == investigationId
    let result := supervised rt config toolCalls
      ((ctx.sop.map fun s => s.2.recommendedSkills).getD []) loopResult
    let finishedAt ← utcNow rt env.finishedAt
    Tx.fallible (env.faults .cancelObsolete)
    Session.modify (recordOutcome investigationId eventId finishedAt result)
    pure start

/-- The `try` block of a run for one event. -/
def investigateAndCount (env : InvestigationEnv) (tie : ℕ → ℕ) (eventId : ℕ) : Session Unit := do
  let start ← investigateEvent rt config env tie eventId
  Tx.fallible (env.faults .budget)
  let probe ← Session.query fun db => eventIsProbe db eventId
  if !probe then
    let skipped ← consumeSkipBudget rt env.markerAt env.faults eventId
    if !skipped then incrementDailyCount rt env.countedAt env.faults start
  Tx.fallible (env.faults .commit)

def investigationLoop (env : InvestigationRunEnv) :
    Loop Exn World ℕ Unit InvestigationRunResult where
  body eventId := investigateAndCount rt config (env.items eventId) env.tie eventId
  rollback := Session.rollback
  expired := rt.readAfterRollback
  onOk r _ _ := { r with processed := r.processed + 1 }
  onError r eventId e := { r with errors := r.errors ++ [(eventId, e)] }

/-- `InvestigationOrchestrator.run` -/
def investigationRun (env : InvestigationRunEnv) (limit : Option ℤ) (useLock : Bool) :
    Session InvestigationRunResult := do
  if useLock && !env.lockAcquired then pure { skippedLock := true }
  else
    let remaining ← budgetRemaining rt env.budgetAt config.dailyEventBudget
    if remaining ≤ 0 then pure { skippedBudget := true }
    else
      let n ← sqlLimit (min (limitOr limit config.batchSize) remaining)
      Tx.fallible env.pickFault
      let events ← Session.query (pickEvents env.tie n)
      (investigationLoop rt config env).run events {}

end

end Minsight

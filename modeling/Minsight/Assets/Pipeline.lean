import Minsight.Assets.Builders
import Minsight.Agent.Orchestrator

/-! # Asset sedimentation pipeline -/

namespace Minsight

structure AssetPipelineResult where
  processed : ℕ := 0
  skippedLock : Bool := false
  skippedDisabled : Bool := false
  errors : List (ℕ × Exn) := []

/-- Where settling an event can fail on something outside the program. -/
inductive SettlePoint
  | buildCase | whitelist | profile | dispositions
  deriving DecidableEq, Repr

/-- A step raises; when it is a database statement, the transaction fails with it. -/
inductive SettleFault
  | raises (e : Exn)
  | database
  deriving DecidableEq, Repr

structure SettleEnv where
  embedding : Option (List ℚ) := none
  faults : SettlePoint → Option SettleFault := fun _ => none

structure AssetPipelineEnv where
  lockAcquired : Bool := true
  pickFault : Option Exn := none
  commitFault : Option Exn := none
  tie : ℕ → ℕ := id
  items : ℕ → SettleEnv := fun _ => {}

structure SettleTarget where
  eventId : ℕ
  event : Event
  investigationId : ℕ
  conclusion : InvestigationConclusion

/-- `SETTLE_VERDICTS` -/
def InvestigationVerdict.isSettleable : InvestigationVerdict → Bool
  | .attackConfirmed | .likelyFalsePositive => true
  | .insufficientInformation | .needsHumanReview => false

/-- `_latest_settleable_investigation` -/
def latestSettleableInvestigation (tie : ℕ → ℕ) (db : Db) (eventId : ℕ) :
    Option (ℕ × InvestigationConclusion) := do
  let (investigationId, _) ← (Rows.orderLimit
    (Rows.descending (fun x => toLex (Rows.nullLow x.2.finishedAt, x.2.startedAt))
      fun x => tie x.1) 1
    (db.investigations.select fun _ i => i.eventId == eventId && i.status == .completed)).head?
  let conclusion ← db.conclusions.find? fun c => c.investigationId == investigationId
  if conclusion.verdict.isSettleable then some (investigationId, conclusion) else none

/-- Concluded events, each with one completed investigation. -/
def concludedEvents (n : ℕ) : Db where
  events := (List.range n).map fun _ => { eventKey := "", status := .concluded, createdAt := 0 }
  investigations := (List.range n).map fun e =>
    { eventId := e, status := .completed, modelName := "", startedAt := 0 }
  conclusions := (List.range n).map fun i => {
    investigationId := i
    verdict := .attackConfirmed
    confidence := 1
    riskLevel := .medium
    reasoning := "" }

/-- `_dispositions_resolved` -/
def dispositionsResolved (db : Db) (investigationId : ℕ) : Bool :=
  (db.dispositionRecords.filter fun r => r.investigationId == investigationId).all fun r =>
    r.status != .suggested

def closeEvent (eventId : ℕ) : Session Unit :=
  Session.modify (Db.setEventStatus eventId .closed)

section

variable (rt : Runtime) (config : DefenseAssetConfig)

/-- `_should_close_event` -/
def shouldCloseEvent (db : Db) (investigationId : ℕ) : Bool :=
  config.autoCloseEvent &&
    (!config.requireDispositionConfirm || dispositionsResolved db investigationId)

/--
The loop of `_pick_targets`. An event whose investigation has its case already is closed
here; the others become targets until there are `limit` of them.
-/
def collectTargets (tie : ℕ → ℕ) (limit : ℕ) (targets : List SettleTarget) :
    List (ℕ × Event) → Session (List SettleTarget)
  | [] => pure targets
  | (eventId, event) :: events => do
    if limit ≤ targets.length then pure targets
    else
      let db ← Session.query id
      if eventIsProbe db eventId then collectTargets tie limit targets events
      else
        match latestSettleableInvestigation tie db eventId with
        | none => collectTargets tie limit targets events
        | some (investigationId, conclusion) =>
          match db.judgmentCases.countP fun c => c.investigationId == investigationId with
          | 0 =>
            let target : SettleTarget := { eventId, event, investigationId, conclusion }
            collectTargets tie limit (targets ++ [target]) events
          | 1 =>
            if shouldCloseEvent config db investigationId then
              closeEvent eventId
              collectTargets tie limit targets events
            else collectTargets tie limit targets events
          | _ => Tx.raise .multipleResults

/-- `_pick_targets` -/
def pickTargets (tie : ℕ → ℕ) (limit : ℤ) : Session (List SettleTarget) := do
  let n ← sqlLimit (limit * 3)
  let events ← Session.query fun db =>
    Rows.orderLimit (fun x y => (compareTimes x.2.lastAlertAt y.2.lastAlertAt).then
      (compare (tie x.1) (tie y.1)) |>.isLE) n
      (db.events.select fun _ e => e.status == .concluded)
  collectTargets config tie limit.toNat [] events

def settleStep (fault : Option SettleFault) : Session Unit := do
  let failed ← Tx.read (·.failed)
  if failed then Tx.raise .pendingRollback
  else
    match fault with
    | none => pure ()
    | some (.raises e) => Tx.raise e
    | some .database =>
      Tx.write fun w => { w with failed := true }
      Tx.raise .statement

/-- The case with its embedding, which is missing when the service could not compute it. -/
def embedCase (env : SettleEnv) (case : JudgmentCase) : JudgmentCase :=
  if config.embeddingEnabled then { case with embedding := env.embedding } else case

/-- `create_whitelist_candidate_if_applicable`; the candidate is added. -/
def addWhitelistCandidate (env : SettleEnv) (t : SettleTarget) : Session Unit :=
  match whitelistPattern rt config t.conclusion with
  | none => pure ()
  | some (wl, pattern, phash) => do
    settleStep (env.faults .whitelist)
    let existing ← Session.query fun db => db.whitelistCandidates.countP fun c =>
      c.status == .pending && samePatternHash phash c
    match existing with
    | 0 => Session.modify fun db => { db with
        whitelistCandidates := db.whitelistCandidates ++
          [whitelistCandidateOf t.investigationId wl pattern phash] }
    | 1 => pure ()
    | _ => Tx.raise .multipleResults

/-- `create_profile_suggestion_if_applicable`; the suggestion is added. -/
def addProfileSuggestion (env : SettleEnv) (t : SettleTarget) : Session Unit :=
  match profileTarget rt t.conclusion with
  | none => pure ()
  | some (pu, entityType, key) => do
    settleStep (env.faults .profile)
    Session.modify fun db =>
      match loadProfile db entityType key with
      | some (pid, _) => { db with
          profileSuggestions := db.profileSuggestions ++
            [{ investigationId := t.investigationId, entityProfileId := pid
               suggestedChanges := pu }] }
      | none => { db with
          entityProfiles := db.entityProfiles ++ [{ entityType, entityKey := key }]
          profileSuggestions := db.profileSuggestions ++
            [{ investigationId := t.investigationId, entityProfileId := db.entityProfiles.length
               suggestedChanges := pu }] }

/-- `create_rule_candidate_if_applicable`; the candidate is added. -/
def addRuleCandidate (t : SettleTarget) : Session Unit :=
  Session.modify fun db => { db with
    ruleCandidates := db.ruleCandidates ++
      (createRuleCandidate t.investigationId t.conclusion).toList }

/-- The last step of settling, which closes the event when it may be closed. -/
def closeSettled (env : SettleEnv) (t : SettleTarget) : Session Unit := do
  if config.autoCloseEvent then
    if config.requireDispositionConfirm then
      settleStep (env.faults .dispositions)
      let resolved ← Session.query fun db => dispositionsResolved db t.investigationId
      if resolved then closeEvent t.eventId else pure ()
    else closeEvent t.eventId
  else pure ()

/-- `_settle_one` -/
def settleOne (env : SettleEnv) (tie : ℕ → ℕ) (t : SettleTarget) : Session Unit := do
  settleStep (env.faults .buildCase)
  let case ← Session.query fun db =>
    buildJudgmentCase rt tie db t.investigationId t.eventId t.event t.conclusion
  Session.modify fun db => { db with
    judgmentCases := db.judgmentCases ++ [embedCase config env case] }
  addWhitelistCandidate rt config env t
  addProfileSuggestion rt env t
  addRuleCandidate t
  closeSettled config env t

/-- The settling loop, which reports a failed event and goes on in the same transaction. -/
def settleAll (env : AssetPipelineEnv) (result : AssetPipelineResult) :
    List SettleTarget → Session AssetPipelineResult
  | [] => pure result
  | t :: ts => do
    match ← Tx.attempt (settleOne rt config (env.items t.eventId) env.tie t) with
    | .ok _ => settleAll env { result with processed := result.processed + 1 } ts
    | .error e => settleAll env { result with errors := result.errors ++ [(t.eventId, e)] } ts

/-- The commit that ends a run; a failed transaction cannot be committed. -/
def commitRun (fault : Option Exn) : Session Unit := do
  let failed ← Tx.read (·.failed)
  if failed then Tx.raise .pendingRollback else Tx.fallible fault

/-- `AssetPipeline.run` -/
def assetPipelineRun (env : AssetPipelineEnv) (limit : Option ℤ) (useLock : Bool) :
    Session AssetPipelineResult :=
  Session.transaction do
    if useLock && !env.lockAcquired then pure { skippedLock := true }
    else if !config.enabled then pure { skippedDisabled := true }
    else
      Tx.fallible env.pickFault
      let targets ← pickTargets config env.tie (limitOr limit config.batchSize)
      let result ← settleAll rt config env {} targets
      commitRun env.commitFault
      pure result

/-- Decide a disposition that is still a suggestion; true when it was. -/
def decideDisposition (now : Time) (commitFault : Option Exn) (recordId : ℕ)
    (decision : Time → DispositionRecord → DispositionRecord) : Session Bool :=
  Session.transaction do
    let db ← Session.query id
    match db.dispositionRecords[recordId]? with
    | some record =>
      if record.status = .suggested then
        let now ← utcNow rt now
        Session.modify fun db => { db with
          dispositionRecords := db.dispositionRecords.modify recordId (decision now) }
        Tx.fallible commitFault
        pure true
      else pure false
    | none => pure false

def DispositionRecord.confirmed (action : Option String) (confirmedById : Option ℕ) (now : Time)
    (r : DispositionRecord) : DispositionRecord :=
  { r with
    status := .confirmed
    confirmedAction := some (orText action r.suggestedAction)
    confirmedById := confirmedById
    confirmedAt := some now }

def DispositionRecord.rejected (now : Time) (r : DispositionRecord) : DispositionRecord :=
  { r with status := .rejected, confirmedAt := some now }

/-- `DispositionService.confirm`, committed by its caller. -/
def confirmDisposition (now : Time) (commitFault : Option Exn) (recordId : ℕ)
    (confirmedAction : Option String) (confirmedById : Option ℕ) : Session Bool :=
  decideDisposition rt now commitFault recordId (.confirmed confirmedAction confirmedById)

/-- `DispositionService.reject`, committed by its caller. -/
def rejectDisposition (now : Time) (commitFault : Option Exn) (recordId : ℕ) : Session Bool :=
  decideDisposition rt now commitFault recordId .rejected

end

end Minsight

import Minsight.Aggregation.Key
import Minsight.Triage.Pattern

/-! # Triage handlers

Each handler reads and writes the session and returns the context it was given, changed.
-/

namespace Minsight

section

variable (rt : Runtime) (config : TriageConfig) (env : TriageEnv)

def AlertDedupGroup.renewed (now window : Time) (g : AlertDedupGroup) : AlertDedupGroup :=
  if g.windowEnd < now then
    { g with
      windowStart := now
      windowEnd := now + window
      firstSeenAt := now
      lastSeenAt := now
      occurrenceCount := 1
      representativeAlertId := none }
  else g

def dedupHandle (ctx : TriageContext) : Session TriageContext := do
  let now ← utcNow rt env.dedupNow
  let window := minutes config.dedupWindowMinutes
  Tx.fallible (env.faults .dedup)
  let groups ← Session.query (·.alertDedupGroups)
  match (groups.select fun _ g => g.fingerprint == ctx.alert.row.fingerprint).head? with
  | none =>
    Session.modify fun db => { db with
      alertDedupGroups := db.alertDedupGroups ++ [{
        fingerprint := ctx.alert.row.fingerprint
        firstSeenAt := now
        lastSeenAt := now
        windowStart := now
        windowEnd := now + window }] }
    pure { ctx with dedupGroupId := some groups.length, isRepresentative := true }
  | some (gid, group) =>
    if now ≤ group.windowEnd ∧ group.representativeAlertId.isSome then
      Session.modify fun db => { db with
        alertDedupGroups := db.alertDedupGroups.modify gid fun g =>
          { g with occurrenceCount := g.occurrenceCount + 1, lastSeenAt := now } }
      pure { ctx with
        dedupHit := true
        dedupGroupId := some gid
        isRepresentative := false
        shortCircuit := true
        routeDecision := some .archiveDedup }
    else
      Session.modify fun db => { db with
        alertDedupGroups := db.alertDedupGroups.modify gid fun g => { g.renewed now window with
          lastSeenAt := now } }
      pure { ctx with dedupGroupId := some gid, isRepresentative := true }

/-- The first rule in force that matches, in the order the query returned them. -/
def firstMatch (alert : Alert) (now : Time) :
    List (ℕ × WhitelistRule) → Except Exn (Option ℕ)
  | [] => .ok none
  | (rid, rule) :: rules =>
    if now < rule.effectiveFrom ∨ rule.effectiveUntil < now then firstMatch alert now rules
    else
      match matchPattern rt alert rule.matchPattern with
      | .ok true => .ok (some rid)
      | .ok false => firstMatch alert now rules
      | .error e => .error e

def whitelistHandle (ctx : TriageContext) : Session TriageContext := do
  if ctx.shortCircuit then pure ctx
  else
    let now ← utcNow rt env.whitelistNow
    Tx.fallible (env.faults .whitelist)
    let rules ← Session.query fun db => db.whitelistRules.select fun _ r => r.status == .active
    match firstMatch rt ctx.alert.row now rules with
    | .error e => Tx.raise e
    | .ok none => pure ctx
    | .ok (some rid) =>
      pure { ctx with
        whitelistRuleId := some rid
        shortCircuit := true
        routeDecision := some .archiveWhitelist }

def loadProfile (db : Db) (entityType : EntityType) (entityKey : String) :
    Option (ℕ × EntityProfile) :=
  (db.entityProfiles.select fun _ p =>
    p.entityType == entityType && p.entityKey == entityKey).head?

def entityHints (db : Db) (now : Time) (entityType : EntityType) (entityKey : Option String) :
    List ℚ :=
  match truthyText entityKey with
  | none => []
  | some key =>
    match loadProfile db entityType key with
    | none => []
    | some (pid, profile) =>
      let memories := db.entityProfileMemories.filter fun m =>
        m.entityProfileId == pid &&
          !(match m.validUntil with | some t => decide (t < now) | none => false)
      let bonuses := memories.map fun m => min 5 (rt.arith.round (m.confidence * 5))
      (if profile.isKnownScanner then [8] else []) ++ (if profile.isJumpHost then [5] else [])
        ++ (if profile.isDecommissioned then [10] else []) ++ bonuses.filter (0 < ·)

/-- `str(ts)` -/
def timeText (ts : Time) : String := (isoformat ts).map fun c => if c = 'T' then ' ' else c

/-- `getattr(ctx.alert, field, None)`, if it is true. -/
def snapshotField (alert : AlertSnapshot) (field : String) : Option Json :=
  let value : Option Json := match field with
    | "id" => some (.str (toString alert.id))
    | "data_source_id" => some (.str (toString alert.row.dataSourceId))
    | "data_source_name" => some (.str alert.dataSourceName)
    | "severity" => some (.int alert.row.severity)
    | "occurred_at" => some (.str (timeText alert.row.occurredAt))
    | "normalized_fields" => some alert.row.normalizedFields
    | "raw_data" => some alert.row.rawData
    | _ =>
      match alertColumn? alert.row field with
      | some column => column.map .str
      | none => (env.classAttribute field).map .str
  value.filter Json.truthy

/-- `getattr(ctx.alert, field, None) or normalized_fields.get(field)` -/
def knowledgeField (alert : AlertSnapshot) (field : String) : Option Json :=
  match snapshotField env alert field with
  | some value => some value
  | none =>
    match alert.row.normalizedFields.get? field with
    | some .null => none
    | value => value

def knowledgeMatches (alert : AlertSnapshot) (scope : Json) : Bool :=
  match scope with
  | .obj [] => false
  | .obj fields => fields.all fun (field, expected) =>
    match knowledgeField env alert field with
    | none => false
    | some actual =>
      match expected with
      | .arr items => (items.map rt.str).contains (rt.str actual)
      | _ => rt.str actual == rt.str expected
  | _ => false

def knowledgeApplies (db : Db) (now : Time) (alert : AlertSnapshot) : Bool :=
  db.onDutyKnowledge.any fun item =>
    item.isActive && decide (item.effectiveFrom ≤ now) &&
      !(match item.effectiveUntil with | some t => decide (t < now) | none => false) &&
      knowledgeMatches rt env alert item.scope

def profileHintHandle (ctx : TriageContext) : Session TriageContext := do
  if ctx.shortCircuit then pure ctx
  else
    let now ← utcNow rt env.profileNow
    Tx.fallible (env.faults .profileHint)
    let db ← Session.query id
    let alert := ctx.alert.row
    let points := entityHints rt db now .ip alert.srcIp ++ entityHints rt db now .host alert.hostName
      ++ entityHints rt db now .user alert.userName
      ++ if knowledgeApplies rt env db now ctx.alert then [5] else []
    pure { ctx with profileHintScore := min config.profileHintCap (rt.arith.sum points) }

def severityScore : ℤ → ℚ
  | 1 => 20
  | 2 => 40
  | 3 => 60
  | 4 => 80
  | 5 => 100
  | _ => 60

def frequencyScoreFromCount (count : ℕ) : ℚ := min 100 (max 0 (count * 15))

def categoryRiskScore (category : Option String) (weights : List (String × ℚ)) : ℚ :=
  let default := (weights.lookup "uncategorized").getD 50
  match truthyText category with
  | none => default
  | some c => (weights.lookup c).getD default

def criticalityScore : AssetCriticality → ℚ
  | .critical => 100
  | .high => 80
  | .medium => 60
  | .low => 40

def frequencyKey (alert : AlertSnapshot) : String :=
  let entity := orText alert.row.srcIp (orText alert.row.hostName "unknown")
  "freq:1h:" ++ alert.dataSourceName ++ ":" ++ entity ++ ":" ++ orText alert.row.ruleId "any"

/-- The number of alerts of the last hour with the alert's entity and rule. -/
def frequencyFromDb (db : Db) (since : Time) (alert : Alert) : ℕ :=
  db.alerts.countP fun a =>
    decide (since ≤ a.occurredAt) &&
    (match truthyText alert.srcIp, truthyText alert.hostName with
      | some ip, _ => a.srcIp == some ip
      | none, some host => a.hostName == some host
      | none, none => true) &&
    (match truthyText alert.ruleId with | some r => a.ruleId == some r | none => true)

def getFrequencyCount (alert : AlertSnapshot) : Session ℕ := do
  let now ← utcNow rt env.frequencyNow
  if env.redisUp then
    let key := frequencyKey alert
    let counter ← Session.redis (·.frequency key)
    let (count, expiry) := match counter with
      | some (n, t) => if now < t then (n + 1, t) else (1, now + hours 1)
      | none => (1, now + hours 1)
    Session.setRedis fun o => { o with
      frequency := Function.update o.frequency key (some (count, expiry)) }
    pure count
  else
    Tx.fallible (env.faults .frequency)
    Session.query fun db => frequencyFromDb db (now - hours 1) alert.row

def assetScore (db : Db) (alert : Alert) : ℚ :=
  match truthyText alert.hostName with
  | none => 60
  | some host =>
    match loadProfile db .host host with
    | none => 60
    | some (_, profile) => criticalityScore profile.assetCriticality

/-- `sev * 0.4 + freq * 0.3 + asset * 0.2 + category * 0.1` -/
def weighted (a : Arithmetic) (sev freq asset category : ℚ) : ℚ :=
  a.sum [a.round (sev * a.round (4 / 10)), a.round (freq * a.round (3 / 10)),
    a.round (asset * a.round (2 / 10)), a.round (category * a.round (1 / 10))]

/-- `min(profile_hint_score_discount_cap, profile_hint_score * 0.3)` -/
def hintDiscount (a : Arithmetic) (cap hint : ℚ) : ℚ := min cap (a.round (hint * a.round (3 / 10)))

def ruleScoreHandle (ctx : TriageContext) : Session TriageContext := do
  if ctx.shortCircuit then pure ctx
  else
    let sev := severityScore ctx.alert.row.severity
    let freqCount ← getFrequencyCount rt env ctx.alert
    let freq := frequencyScoreFromCount freqCount
    Tx.fallible (env.faults .assetScore)
    let asset ← Session.query fun db => assetScore db ctx.alert.row
    let category := categoryRiskScore ctx.alert.row.alertCategory config.categoryRisk
    let score := weighted rt.arith sev freq asset category
    let discount := hintDiscount rt.arith config.profileHintScoreDiscountCap ctx.profileHintScore
    let ruleScore := rt.arith.roundTo 2 (max 0 (rt.arith.round (score - discount)))
    pure { ctx with ruleScore := ruleScore, effectiveScore := ruleScore }

def predictRouteDecision (score : ℚ) : RouteDecision :=
  if config.deepReviewThreshold ≤ score then .queueDeepReview
  else if config.uncertainBandLow ≤ score ∧ score < config.uncertainBandHigh then .queueUncertain
  else if score < config.lowRiskThreshold then .archiveLowRisk
  else .queueUncertain

def llmCacheKey (alert : AlertSnapshot) : String :=
  "llm_triage:v1:" ++ rt.sha256Hex (toString alert.id ++ "|" ++ alert.row.ruleId.getD "None" ++ "|"
    ++ alert.row.fingerprint)

def withLlmScore (ctx : TriageContext) : Option ℚ → TriageContext
  | none => ctx
  | some score =>
    let rest := rt.arith.round (1 - config.llmWeight)
    { ctx with
      llmAssistScore := some score
      effectiveScore := rt.arith.roundTo 2 (rt.arith.sum
        [rt.arith.round (ctx.ruleScore * rest), rt.arith.round (score * config.llmWeight)]) }

def routeFiltered (score : ℚ) : Bool :=
  let allowed := config.llmAssistRouteFilter.map rt.lower
  !allowed.isEmpty && !allowed.contains (predictRouteDecision config score).value

/-- The cached score, or the model's answer, which is then cached. -/
def llmScore (key : String) : Session (Option ℚ) := do
  let now ← utcNow rt env.llmNow
  let cached ← Session.redis (·.cachedScore key)
  match cached.filter (fun c => env.redisUp && decide (now < c.2)) with
  | some (score, _) => pure (some score)
  | none =>
    match env.llmScore with
    | .error _ => pure none
    | .ok score =>
      Session.setRedis fun o => { o with
        llmAssistCalls := o.llmAssistCalls + 1
        cachedScore := if env.redisUp
          then Function.update o.cachedScore key (some (score, now + hours 24))
          else o.cachedScore }
      pure (some score)

def llmAssistHandle (ctx : TriageContext) : Session TriageContext := do
  let calls ← Session.redis (·.llmAssistCalls)
  if ctx.shortCircuit || !config.llmAssistEnabled then pure ctx
  else if routeFiltered rt config ctx.effectiveScore then pure ctx
  else if config.llmAssistMaxPerRun ≤ calls then pure ctx
  else
    let score ← llmScore rt env (llmCacheKey rt ctx.alert)
    pure (withLlmScore rt config { ctx with llmCacheKey := some (llmCacheKey rt ctx.alert) } score)

def routeHandle (ctx : TriageContext) : TriageContext :=
  if ctx.routeDecision.isSome then ctx
  else
    let score := ctx.effectiveScore
    let route :=
      if config.deepReviewThreshold ≤ score then .queueDeepReview
      else if config.uncertainBandLow ≤ score ∧ score < config.uncertainBandHigh then
        .queueUncertain
      else if score < config.lowRiskThreshold then
        if env.draw < config.sampleAuditRate then .sampleAudit else .archiveLowRisk
      else .queueUncertain
    { ctx with routeDecision := some route }

/-- `ARCHIVE_ROUTES` -/
def RouteDecision.isArchive : RouteDecision → Bool
  | .archiveLowRisk | .archiveWhitelist | .archiveDedup | .sampleAudit => true
  | .queueDeepReview | .queueUncertain => false

/-- `QUEUE_ROUTES` -/
def RouteDecision.isQueue : RouteDecision → Bool
  | .queueDeepReview | .queueUncertain => true
  | _ => false

def routedStatus (route : RouteDecision) : AlertStatus :=
  if route.isArchive then .archived else if route.isQueue then .triaged else .triaged

def triageResultOf (ctx : TriageContext) (route : RouteDecision) (now : Time) : TriageResult where
  alertId := ctx.alert.id
  dedupHit := ctx.dedupHit
  profileHintScore := ctx.profileHintScore
  whitelistRuleId := ctx.whitelistRuleId
  ruleScore := ctx.ruleScore
  llmAssistScore := ctx.llmAssistScore
  llmCacheKey := ctx.llmCacheKey
  routeDecision := route
  triagedAt := now

def routedAlert (ctx : TriageContext) (route : RouteDecision) (alert : Alert) : Alert :=
  { alert with
    dedupGroupId := match ctx.dedupGroupId with | some g => some g | none => alert.dedupGroupId
    status := routedStatus route }

/-- The dedup groups once the context's alert may represent its group. -/
def representGroup (ctx : TriageContext) (groups : Rows AlertDedupGroup) :
    Rows AlertDedupGroup :=
  match ctx.dedupGroupId with
  | none => groups
  | some gid =>
    if ctx.isRepresentative then
      groups.modify gid fun group => { group with
        representativeAlertId := match group.representativeAlertId with
          | some r => some r
          | none => some ctx.alert.id }
    else groups

def recordTriage (ctx : TriageContext) (route : RouteDecision) (now : Time) (db : Db) : Db :=
  { db with
    triageResults := db.triageResults ++ [triageResultOf ctx route now]
    alerts := db.alerts.modify ctx.alert.id (routedAlert ctx route)
    alertDedupGroups := representGroup ctx db.alertDedupGroups
    auditSamples := if route = .sampleAudit
      then db.auditSamples ++ [{ alertId := some ctx.alert.id, sampleReason := .lowRiskRandom }]
      else db.auditSamples }

def persistHandle (ctx : TriageContext) : Session TriageContext := do
  match ctx.routeDecision with
  | none => Tx.raise (.valueError "route_decision must be set before persist")
  | some route =>
    let now ← utcNow rt env.persistNow
    Tx.fallible (env.faults .persist)
    let db ← Session.query id
    if (db.alerts[ctx.alert.id]?).isNone then
      Tx.raise (.valueError ("Alert not found: " ++ toString ctx.alert.id))
    else if db.triageResults.any fun t => t.alertId == ctx.alert.id then
      Tx.raise (.integrity "uq_triage_results_alert_id")
    else
      Session.modify (recordTriage ctx route now)
      pure ctx

end

end Minsight

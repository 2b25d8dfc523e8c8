import Minsight.Agent.Conclusion

/-! # Asset builders

What settling an investigation derives from its conclusion.
-/

namespace Minsight

structure DefenseAssetConfig where
  enabled : Bool := true
  batchSize : ℤ := 20
  autoCloseEvent : Bool := true
  requireDispositionConfirm : Bool := false
  whitelistPromotionThreshold : ℤ := 3
  whitelistRuleTtlDays : ℤ := 365
  createWhitelistOnFpOnly : Bool := true
  embeddingEnabled : Bool := false

/-- `build_entity_tags`, which is called without alerts. -/
def buildEntityTags (event : Event) : List (String × Json) :=
  [("category", event.primaryCategory), ("host", event.aggregateHostName),
    ("user", event.aggregateUserName)].filterMap fun (k, v) =>
      (truthyText v).map fun s => (k, .str s)

/-- `build_investigation_trace` -/
def buildInvestigationTrace (toolCalls : List InvestigationToolCall) : List Json :=
  (toolCalls.insertionSort fun x y => x.stepNumber ≤ y.stepNumber).map fun tc =>
    .obj [("step", .int tc.stepNumber), ("skill", .str tc.skillName), ("success", .bool tc.success),
      ("summary", .str (tc.outputSummary.getD ""))]

/-- `load_human_feedback` -/
def loadHumanFeedback (tie : ℕ → ℕ) (db : Db) (eventId : ℕ) : Option String := do
  let (requestId, _) ← (Rows.orderLimit
    (Rows.descending (fun x => Rows.nullHigh x.2.answeredAt) fun x => tie x.1) 1
    (db.requests.select fun _ r => r.eventId == eventId && r.status == .answered)).head?
  let (_, response) ← (Rows.orderLimit (Rows.descending (·.2.createdAt) fun x => tie x.1) 1
    (db.responses.select fun _ r => r.requestId == requestId)).head?
  some (orText response.parsedContent response.rawContent)

/-- `build_judgment_case` -/
def buildJudgmentCase (rt : Runtime) (tie : ℕ → ℕ) (db : Db) (investigationId eventId : ℕ)
    (event : Event) (conclusion : InvestigationConclusion) : JudgmentCase :=
  let hint := match conclusion.suggestedAssets.get? "judgment_case" with
    | some (.obj fields) => Json.obj fields
    | _ => .obj []
  { investigationId := investigationId
    featureSummary := match hint.get? "feature_summary" with
      | some v => if v.truthy then rt.str v else takeText 200 conclusion.reasoning
      | none => takeText 200 conclusion.reasoning
    alertCategory := event.primaryCategory
    entityTags := match hint.get? "entity_tags" with
      | some (.obj (f :: fs)) => .obj (f :: fs)
      | _ => .obj (buildEntityTags event)
    investigationTrace := buildInvestigationTrace
      (db.toolCalls.filter fun tc => tc.investigationId == investigationId)
    verdict := conclusion.verdict
    reasoning := conclusion.reasoning
    humanFeedback := loadHumanFeedback tie db eventId }

/-- `pattern_hash` -/
def patternHash (rt : Runtime) (matchPattern : Json) : String :=
  takeText 16 (rt.sha256Hex (rt.dumps matchPattern))

/-- `extract_match_pattern` -/
def extractMatchPattern (suggested : Json) : Option Json :=
  match suggested.get? "match_pattern" with
  | some mp => mp.asObj?
  | none =>
    if (suggested.get? "field").isSome && (suggested.get? "value").isSome then some suggested
    else none

/-- The suggestion of a kind, when it is an object. -/
def suggestion (conclusion : InvestigationConclusion) (kind : String) : Option Json :=
  (conclusion.suggestedAssets.get? kind).bind Json.asObj?

/-- The pattern and hash a whitelist suggestion asks for, when settling may create a candidate. -/
def whitelistPattern (rt : Runtime) (config : DefenseAssetConfig)
    (conclusion : InvestigationConclusion) : Option (Json × Json × String) :=
  if config.createWhitelistOnFpOnly && conclusion.verdict ≠ .likelyFalsePositive then none
  else do
    let wl ← suggestion conclusion "whitelist_candidate"
    let pattern ← extractMatchPattern wl
    some (wl, pattern, patternHash rt pattern)

def samePatternHash (phash : String) (c : WhitelistCandidate) : Bool :=
  match c.suggestedPattern.get? "pattern_hash" with
  | some (.str h) => h == phash
  | _ => false

def whitelistCandidateOf (investigationId : ℕ) (wl pattern : Json) (phash : String) :
    WhitelistCandidate where
  investigationId := investigationId
  suggestedPattern := .obj [("rule_type", (wl.get? "rule_type").getD (.str "composite")),
    ("match_pattern", pattern), ("pattern_hash", .str phash)]
  reason := wl.get? "reason"

def profileTarget (rt : Runtime) (conclusion : InvestigationConclusion) :
    Option (Json × EntityType × String) := do
  let pu ← suggestion conclusion "profile_update"
  let key ← (pu.get? "entity_key").filter Json.truthy
  let kind := rt.str ((pu.get? "entity_type").getD (.str "host"))
  some (pu, (EntityType.ofValue kind).getD .host, rt.str key)

/-- `create_rule_candidate_if_applicable` -/
def createRuleCandidate (investigationId : ℕ) (conclusion : InvestigationConclusion) :
    Option RuleCandidate :=
  (suggestion conclusion "rule_candidate").map fun rc =>
    { investigationId, ruleDraft := rc, reason := rc.get? "reason" }

end Minsight

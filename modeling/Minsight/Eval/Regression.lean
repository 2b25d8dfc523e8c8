import Minsight.Agent.Loop
import Minsight.Ingestion.Mapper

/-! # Regression cases

A case is a labelled alert. The agent loop runs on it with an investigation that exists in memory
only, and with the real model or with one that replays a fixture.
-/

namespace Minsight.Regression

/-- The rows of `system_config`. -/
abbrev SystemConfig := List (String × Json)

section

variable (rt : Runtime) (int : String → Option ℤ) (rows : SystemConfig)

/-- `get_config_value` -/
def getConfigValue (key : String) (default : Json) : Json := (rows.lookup key).getD default

/-- `get_config_bool` -/
def getConfigBool (key : String) (default : Bool) : Bool :=
  match rows.lookup key with
  | some (.obj fields) => ((fields.lookup "value").map Json.truthy).getD default
  | some (.bool b) => b
  | _ => default

/-- `get_config_int` -/
def getConfigInt (key : String) (default : ℤ) : Except Exn ℤ :=
  match rows.lookup key with
  | some (.obj fields) => ((fields.lookup "value").map (intOf int)).getD (.ok default)
  | some (.bool b) => .ok (if b then 1 else 0)
  | some (.int n) => .ok n
  | _ => .ok default

/-- The `value` of an object, and any other value as it is. -/
def unwrapped (default : Json) : Json → Json
  | .obj fields => (fields.lookup "value").getD default
  | value => value

/-- `InvestigationVerdict(value)` -/
def verdictOf (value : String) : Except Exn InvestigationVerdict :=
  ([.attackConfirmed, .likelyFalsePositive, .insufficientInformation, .needsHumanReview].find?
    fun v : InvestigationVerdict => v.value == value).elim
      (.error (.valueError "is not a valid InvestigationVerdict")) .ok

structure EvalConfig where
  regressionEnabled : Bool := true
  regressionUseRealLlmDefault : Bool := false
  regressionCron : Option Json := none
  healthCheckEnabled : Bool := true
  healthCheckCron : Option Json := none
  healthCheckAgentMockVerdict : InvestigationVerdict := .likelyFalsePositive
  probeRetentionDays : ℤ := 7
  alertWebhookUrl : Option String := none

/-- `load_eval_config` -/
def loadEvalConfig : Except Exn EvalConfig := do
  let likely := Json.str InvestigationVerdict.likelyFalsePositive.value
  let optional key := (some (unwrapped .null (getConfigValue rows key .null))).filter Json.truthy
  let verdict ← verdictOf (rt.str (unwrapped likely
    (getConfigValue rows "eval.health_check_agent_mock_verdict" (.obj [("value", likely)]))))
  let days ← getConfigInt int rows "eval.probe_retention_days" 7
  pure {
    regressionEnabled := getConfigBool rows "eval.regression_enabled" true
    regressionUseRealLlmDefault :=
      getConfigBool rows "eval.regression_use_real_llm_default" false
    regressionCron := optional "eval.regression_cron"
    healthCheckEnabled := getConfigBool rows "eval.health_check_enabled" true
    healthCheckCron := optional "eval.health_check_cron"
    healthCheckAgentMockVerdict := verdict
    probeRetentionDays := days
    alertWebhookUrl := (optional "eval.alert_webhook_url").map rt.str }

structure DispositionConfig where
  simulationEnabled : Bool := false
  requireApproval : Bool := true
  allowedActionTypes : List String := ["block_ip", "isolate_host", "disable_user"]
  mockMode : Bool := true
  deriving DecidableEq

def iterate : Json → Except Exn (List Json)
  | .arr items => .ok items
  | .str s => .ok (s.toList.map fun c => .str (String.ofList [c]))
  | .obj fields => .ok (fields.map fun field => .str field.1)
  | _ => .error .typeError

/-- `load_disposition_config`, with the environment variable `DISPOSITION_MOCK_MODE`. -/
def loadDispositionConfig (mockEnv : Option String) : Except Exn DispositionConfig := do
  let default : DispositionConfig := {}
  let allowed ← match rows.lookup "disposition.allowed_action_types" with
    | some (.obj fields) =>
      match fields.lookup "value" with
      | some value => (iterate value).map (·.map rt.str)
      | none => pure default.allowedActionTypes
    | some (.arr items) => pure (items.map rt.str)
    | _ => pure default.allowedActionTypes
  pure {
    simulationEnabled := getConfigBool rows "disposition.simulation_enabled" false
    requireApproval := getConfigBool rows "disposition.require_approval" true
    allowedActionTypes := allowed
    mockMode := not (["0", "false", "no"].contains (rt.lower (mockEnv.getD "true"))) }

end

structure RegressionTestCase where
  name : String
  alertPayload : Json
  expectedVerdict : InvestigationVerdict
  expectedSkills : Json := .arr []
  forbiddenSkills : Json := .null
  tags : Json := .arr []
  isActive : Bool := true

/-- `RegressionTestCase.tags.contains([tag])` -/
def RegressionTestCase.hasTag (case : RegressionTestCase) (tag : String) : Bool :=
  match case.tags with
  | .arr tags => tags.any fun t => t.same (.str tag)
  | _ => false

/-- `list(value or [])` -/
def listOr (value : Json) : Except Exn (List Json) :=
  if value.truthy then iterate value else .ok []

/-- A field of type `str | None`. -/
def optionalText : Option Json → Except Exn (Option String)
  | none | some .null => .ok none
  | some (.str s) => .ok (some s)
  | some _ => .error (.valueError "ValidationError")

def floatLimit : ℕ := 2 ^ 1024 - 2 ^ 970

/-- `float(value)`, given `float` on texts. -/
def floatOf (float : String → Option ℚ) : Json → Except Exn ℚ
  | .bool b => .ok (if b then 1 else 0)
  | .int n => if n.natAbs < floatLimit then .ok n else .error .overflowError
  | .float q => .ok q
  | .str s => (float s).elim (.error (.valueError "could not convert string to float")) .ok
  | _ => .error .typeError

structure EventBrief where
  title : Option String
  primaryCategory : Option String
  queuePriority : ℤ
  riskScore : ℚ
  alertCount : ℕ
  firstAlertAt : Time × Time
  lastAlertAt : Time × Time
  aggregateHostName : Option String
  aggregateUserName : Option String

structure AlertBrief where
  /-- The time as it is written and its offset from UTC. -/
  occurredAt : Time × Time
  ruleId : Option String
  ruleName : Option String
  severity : ℤ
  srcIp : Option String
  userName : Option String
  hostName : Option String
  alertCategory : Option String
  triageRuleScore : ℚ
  triageRoute : Option String

structure RegressionContext where
  event : EventBrief
  alert : AlertBrief
  modelName : String := "mock-regression"

section

variable (rt : Runtime) (int : String → Option ℤ) (float : String → Option ℚ)

/-- `_parse_dt` -/
def parseDt (now : Time) : Option Json → Time × Time
  | none | some .null => (now, 0)
  | some value =>
    match fromIsoFormat (spellZone (rt.str value).toList) with
    | none => (now, 0)
    | some (t, offset) => (t, offset.getD 0)

/-- `build_regression_context`, apart from the investigation row. -/
def buildRegressionContext (now : Time) (caseName : String) (alertPayload : Json) :
    Except Exn RegressionContext := do
  if !alertPayload.isObj then .error (.attributeError "get")
  let occurredAt := parseDt rt now (alertPayload.get? "occurred_at")
  let queuePriority ← intOf int ((alertPayload.get? "queue_priority").getD (.int 10))
  let riskScore ← floatOf float ((alertPayload.get? "risk_score").getD (.int 70))
  let title ← optionalText ((alertPayload.get? "title").filter Json.truthy)
  let alertCategory ← optionalText (alertPayload.get? "alert_category")
  let hostName ← optionalText (alertPayload.get? "host_name")
  let userName ← optionalText (alertPayload.get? "user_name")
  let severity ← intOf int ((alertPayload.get? "severity").getD (.int 4))
  let triageRuleScore ← floatOf float ((alertPayload.get? "triage_rule_score").getD (.int 75))
  let ruleId ← optionalText (alertPayload.get? "rule_id")
  let ruleName ← optionalText (alertPayload.get? "rule_name")
  let srcIp ← optionalText (alertPayload.get? "src_ip")
  let triageRoute ← optionalText
    (some ((alertPayload.get? "triage_route").getD (.str "queue_deep_review")))
  pure {
    event := {
      title := some (title.getD ("Regression: " ++ caseName))
      primaryCategory := alertCategory
      queuePriority, riskScore
      alertCount := 1
      firstAlertAt := occurredAt
      lastAlertAt := occurredAt
      aggregateHostName := hostName
      aggregateUserName := userName }
    alert := {
      occurredAt, ruleId, ruleName, severity, srcIp, userName, hostName, alertCategory
      triageRuleScore, triageRoute } }

end

structure FixtureStep where
  skill : String := submitConclusionName
  input : Json := .obj []
  verdict : Option Json := none
  confidence : Json := .float (85 / 100)
  riskLevel : Json := .str "medium"
  reasoning : Json := .str "Mock regression conclusion"
  evidenceRefs : Json := .arr []
  humanQuery : Json := .null

/-- `MockRegressionLLM`, made for one case. -/
structure MockRegressionLlm where
  fallbackVerdict : InvestigationVerdict
  steps : List FixtureStep

/-- `_load_steps`; the file of a case may be missing, and reading it may raise. -/
def loadSteps (fixtures : String → Except Exn (Option (List FixtureStep))) (caseName : String)
    (fallbackVerdict : InvestigationVerdict) : Except Exn (List FixtureStep) :=
  (fixtures caseName).map fun file => file.getD [{
    verdict := some (.str fallbackVerdict.value)
    reasoning := .str ("Default mock conclusion for " ++ caseName) }]

namespace MockRegressionLlm

variable (llm : MockRegressionLlm)

/-- The step that the `n`-th call replays, from one. -/
def stepAt (n : ℕ) : FixtureStep :=
  (llm.steps[n - 1]?).getD { reasoning := .str "Fallback submit" }

/-- `_next_response`, at the `n`-th call. -/
def nextResponse (n : ℕ) : LlmResponse :=
  let step := llm.stepAt n
  let index := toString (min n llm.steps.length)
  { toolCalls :=
      if step.skill ≠ submitConclusionName then
        [{ id := "call_" ++ index, name := step.skill, arguments := step.input }]
      else [{
        id := "call_submit_" ++ index
        name := submitConclusionName
        arguments := .obj ([
          ("verdict", step.verdict.getD (.str llm.fallbackVerdict.value)),
          ("confidence", step.confidence), ("risk_level", step.riskLevel),
          ("reasoning", step.reasoning), ("evidence_refs", step.evidenceRefs)]
          ++ if step.humanQuery.truthy then [("human_query", step.humanQuery)] else []) }]
    promptTokens := 10
    completionTokens := 5 }

/-- The skills that the model and its executor noted during a loop. -/
def noted (log : List AgentEvent) : List String :=
  log.flatMap fun event =>
    match event with
    | .chat n _ =>
      if (llm.stepAt n).skill ≠ submitConclusionName then [(llm.stepAt n).skill] else []
    | .attempt _ skill _ _ => [skill]
    | .resumed => []

end MockRegressionLlm

/-- `mock_execute` -/
def mockExecute (name : String) : SkillResult where
  success := true
  summary := "mock " ++ name
  evidenceRef := "mock:" ++ name

structure CaseEvalResult where
  caseId : ℕ
  caseName : String
  passed : Bool
  expectedVerdict : String
  actualVerdict : Option String
  expectedSkills : List String
  actualSkills : List String
  forbiddenSkills : List String
  verdictMatch : Bool
  skillsOk : Bool
  forbiddenOk : Bool
  closureOk : Bool
  error : Option String

structure CaseOutcome where
  actualVerdict : Option InvestigationVerdict := none
  actualSkills : List String := []
  error : Option String := none
  requireSkills : Bool := true
  requireClosurePass : Bool := false
  closurePassed : Option Bool := none

/-- `evaluate_case` -/
def evaluateCase (str : Json → String) (caseId : ℕ) (case : RegressionTestCase)
    (expectedSkills forbiddenSkills : List Json) (outcome : CaseOutcome) : CaseEvalResult :=
  let expected := expectedSkills.map str
  let forbidden := forbiddenSkills.map str
  let verdictMatch := outcome.actualVerdict == some case.expectedVerdict
  let skillsOk := !outcome.requireSkills || expected.all outcome.actualSkills.contains
  let forbiddenOk := !outcome.requireSkills || !forbidden.any outcome.actualSkills.contains
  let closureOk := !outcome.requireClosurePass || outcome.closurePassed != some false
  { caseId
    caseName := case.name
    passed := verdictMatch && skillsOk && forbiddenOk && closureOk && outcome.error.isNone
    expectedVerdict := case.expectedVerdict.value
    actualVerdict := outcome.actualVerdict.map InvestigationVerdict.value
    expectedSkills := expected
    actualSkills := outcome.actualSkills
    forbiddenSkills := forbidden
    verdictMatch, skillsOk, forbiddenOk, closureOk
    error := outcome.error }

structure VerdictCounts where
  tp : ℕ := 0
  fp : ℕ := 0
  fn : ℕ := 0

structure RegressionMetrics where
  accuracy : ℚ
  /-- The counts of a verdict, its precision and its recall. -/
  byVerdict : List (String × VerdictCounts × ℚ × ℚ)
  skillComplianceRate : ℚ
  total : ℕ
  passed : ℕ
  failed : ℕ

/-- `round(part / whole, 4)`, where nothing of nothing is zero. -/
def rate (part whole : ℕ) : ℚ :=
  if whole = 0 then 0
  else Arithmetic.binary64.roundTo 4 (Arithmetic.binary64.round (part / whole))

/-- `counts[verdict]` is updated, from zero where it is missing. -/
def countVerdict (verdict : String) (f : VerdictCounts → VerdictCounts)
    (counts : List (String × VerdictCounts)) : List (String × VerdictCounts) :=
  if counts.any fun c => c.1 == verdict then
    counts.map fun c => if c.1 = verdict then (c.1, f c.2) else c
  else counts ++ [(verdict, f {})]

def countResult (counts : List (String × VerdictCounts)) (r : CaseEvalResult) :
    List (String × VerdictCounts) :=
  if r.verdictMatch then
    countVerdict r.expectedVerdict (fun c => { c with tp := c.tp + 1 }) counts
  else
    let missed := countVerdict r.expectedVerdict (fun c => { c with fn := c.fn + 1 }) counts
    match r.actualVerdict with
    | some actual => countVerdict actual (fun c => { c with fp := c.fp + 1 }) missed
    | none => missed

/-- `compute_regression_metrics` -/
def computeRegressionMetrics (results : List CaseEvalResult) : RegressionMetrics where
  accuracy := rate (results.countP (·.passed)) results.length
  byVerdict := (results.foldl countResult []).map fun (verdict, c) =>
    (verdict, c, rate c.tp (c.tp + c.fp), rate c.tp (c.tp + c.fn))
  skillComplianceRate :=
    rate (results.countP fun r => r.skillsOk && r.forbiddenOk) results.length
  total := results.length
  passed := results.countP (·.passed)
  failed := results.length - results.countP (·.passed)

end Minsight.Regression

import Minsight.Aggregation.Key
import Minsight.Assets.Builders
import Minsight.Eval.Regression
import Minsight.Foundation.Overlay
import Minsight.Review.Service

/-! # Settings

Each service reads its settings from the rows of `system_config`, and a setting without a row is
at its default. When the application starts it writes the defaults of the services as rows.
-/

namespace Minsight

open Regression

structure InvestigationSettings extends InvestigationConfig where
  pollIntervalMinutes : ℤ := 3
  reasonerModelName : String := "deepseek-reasoner"
  reasonerEnabled : Bool := false

structure HumanReviewSettings extends HumanReviewConfig where
  pollIntervalMinutes : ℤ := 2
  reinvestigationCountsBudget : Bool := false
  wecomToUser : String := "@all"
  auditSampleNotifyViaIm : Bool := false

structure DefenseAssetSettings extends DefenseAssetConfig where
  pollIntervalMinutes : ℤ := 5
  embeddingSearchEnabled : Bool := false
  embeddingModel : String := "text-embedding-3-small"

structure ToolGatewayConfig where
  enabled : Bool := false
  timeoutSeconds : ℤ := 30
  auditAllCalls : Bool := true

section

variable (rt : Runtime) (int : String → Option ℤ) (float : String → Option ℚ) (rows : SystemConfig)

/-- `get_config_float` -/
def getConfigFloat (key : String) (default : ℚ) : Except Exn ℚ :=
  match rows.lookup key with
  | some (.obj fields) => ((fields.lookup "value").map (floatOf float)).getD (.ok default)
  | some (.bool b) => floatOf float (.bool b)
  | some (.int n) => floatOf float (.int n)
  | some (.float q) => floatOf float (.float q)
  | _ => .ok default

def getConfigText (key default : String) : String :=
  match rows.lookup key with
  | some (.obj fields) => ((fields.lookup "value").map rt.str).getD default
  | some (.str s) => s
  | _ => default

def getConfigTexts (key : String) (default : List String) : Except Exn (List String) :=
  match rows.lookup key with
  | some (.obj fields) =>
    ((fields.lookup "value").map fun value => (iterate value).map (·.map rt.str)).getD (.ok default)
  | some (.arr items) => .ok (items.map rt.str)
  | _ => .ok default

/-- The weights of the categories, with those that `triage.category_risk` overrides. -/
def getCategoryRisk : Except Exn (List (String × ℚ)) :=
  let default := ({} : TriageConfig).categoryRisk
  match getConfigValue rows "triage.category_risk" .null with
  | .obj fields =>
    match fields.lookup "weights" with
    | some (.obj weights) => do
      let weights ← weights.mapM fun (k, v) => (floatOf float v).map fun q => (k, q)
      pure (Overlay.overlay Prod.fst default weights)
    | _ => pure default
  | _ => pure default

/-- `load_triage_config` -/
def loadTriageConfig : Except Exn TriageConfig := do
  let categoryRisk ← getCategoryRisk float rows
  let llmAssistRouteFilter ←
    getConfigTexts rt rows "triage.llm_assist_route_filter" ["queue_uncertain"]
  let dedupWindowMinutes ← getConfigInt int rows "triage.dedup_window_minutes" 60
  let deepReviewThreshold ← getConfigFloat float rows "triage.deep_review_threshold" 70
  let lowRiskThreshold ← getConfigFloat float rows "triage.low_risk_threshold" 30
  let uncertainBandLow ← getConfigFloat float rows "triage.uncertain_band_low" 30
  let uncertainBandHigh ← getConfigFloat float rows "triage.uncertain_band_high" 70
  let sampleAuditRate ← getConfigFloat float rows "triage.sample_audit_rate" (1 / 100)
  let llmWeight ← getConfigFloat float rows "triage.llm_weight" (15 / 100)
  let llmAssistMaxPerRun ← getConfigInt int rows "triage.llm_assist_max_per_run" 20
  let batchSize ← getConfigInt int rows "triage.batch_size" 500
  pure {
    dedupWindowMinutes, deepReviewThreshold, lowRiskThreshold, uncertainBandLow, uncertainBandHigh,
    sampleAuditRate, llmWeight, llmAssistRouteFilter, llmAssistMaxPerRun, categoryRisk, batchSize
    llmAssistEnabled := getConfigBool rows "triage.llm_assist_enabled" false }

/-- `load_aggregation_config` -/
def loadAggregationConfig : Except Exn AggregationConfig := do
  let windowHours ← getConfigInt int rows "event.aggregation_window_hours" 24
  let batchSize ← getConfigInt int rows "event.aggregation_batch_size" 500
  pure {
    windowHours, batchSize
    unknownHostSentinel := getConfigText rt rows "event.unknown_host_sentinel" "__unknown_host__"
    unknownUserSentinel := getConfigText rt rows "event.unknown_user_sentinel" "__unknown_user__" }

/-- `load_investigation_config` -/
def loadInvestigationConfig : Except Exn InvestigationSettings := do
  let pollIntervalMinutes ← getConfigInt int rows "investigation.poll_interval_minutes" 3
  let batchSize ← getConfigInt int rows "investigation.batch_size" 5
  let maxSteps ← getConfigInt int rows "investigation.max_steps" 15
  let maxSkillCalls ← getConfigInt int rows "investigation.max_skill_calls" 20
  let dailyEventBudget ← getConfigInt int rows "investigation.daily_event_budget" 200
  let alertPromptLimit ← getConfigInt int rows "investigation.alert_prompt_limit" 20
  let minEvidenceClosureScore ←
    getConfigFloat float rows "investigation.min_evidence_closure_score" (6 / 10)
  let minRefutationCoverageForAttack ←
    getConfigFloat float rows "investigation.min_refutation_coverage_for_attack" (1 / 2)
  let maxClosureRetries ← getConfigInt int rows "investigation.max_closure_retries" 2
  let minRefutingHintsChecked ← getConfigInt int rows "investigation.min_refuting_hints_checked" 1
  pure {
    pollIntervalMinutes, batchSize, maxSteps, maxSkillCalls, dailyEventBudget, alertPromptLimit,
    minEvidenceClosureScore, minRefutationCoverageForAttack, maxClosureRetries,
    minRefutingHintsChecked
    modelName := getConfigText rt rows "investigation.model_name" "deepseek-chat"
    reasonerEnabled := getConfigBool rows "investigation.reasoner_enabled" false
    closureEnabled := getConfigBool rows "investigation.closure_enabled" true
    requireRefutationAttempt := getConfigBool rows "investigation.require_refutation_attempt" true
    supervisorEnabled := getConfigBool rows "investigation.supervisor_enabled" true
    supervisorBlockOnFail := getConfigBool rows "investigation.supervisor_block_on_fail" false }

/-- `load_human_review_config` -/
def loadHumanReviewConfig : Except Exn HumanReviewSettings := do
  let pollIntervalMinutes ← getConfigInt int rows "human_review.poll_interval_minutes" 2
  let batchSize ← getConfigInt int rows "human_review.batch_size" 10
  let timeoutHours ← getConfigInt int rows "human_review.timeout_hours" 24
  let maxResend ← getConfigInt int rows "human_review.max_resend" 2
  let messageMaxChars ← getConfigInt int rows "human_review.message_max_chars" 1800
  pure {
    pollIntervalMinutes, batchSize, timeoutHours, maxResend, messageMaxChars
    enabled := getConfigBool rows "human_review.enabled" true
    channel := getConfigText rt rows "human_review.channel" "wecom"
    reinvestigationEnabled := getConfigBool rows "human_review.reinvestigation_enabled" true
    reinvestigationCountsBudget :=
      getConfigBool rows "human_review.reinvestigation_counts_budget" false
    wecomToUser := getConfigText rt rows "human_review.wecom_to_user" "@all"
    auditSampleEnabled := getConfigBool rows "audit_sample.enabled" true
    auditSampleNotifyViaIm := getConfigBool rows "audit_sample.notify_via_im" false }

/-- `load_defense_asset_config` -/
def loadDefenseAssetConfig : Except Exn DefenseAssetSettings := do
  let pollIntervalMinutes ← getConfigInt int rows "defense_assets.poll_interval_minutes" 5
  let batchSize ← getConfigInt int rows "defense_assets.batch_size" 20
  let whitelistPromotionThreshold ←
    getConfigInt int rows "defense_assets.whitelist_promotion_threshold" 3
  let whitelistRuleTtlDays ← getConfigInt int rows "defense_assets.whitelist_rule_ttl_days" 365
  pure {
    pollIntervalMinutes, batchSize, whitelistPromotionThreshold, whitelistRuleTtlDays
    enabled := getConfigBool rows "defense_assets.enabled" true
    autoCloseEvent := getConfigBool rows "defense_assets.auto_close_event" true
    requireDispositionConfirm :=
      getConfigBool rows "defense_assets.require_disposition_confirm" false
    createWhitelistOnFpOnly := getConfigBool rows "defense_assets.create_whitelist_on_fp_only" true
    embeddingEnabled := getConfigBool rows "defense_assets.embedding_enabled" false
    embeddingSearchEnabled := getConfigBool rows "defense_assets.embedding_search_enabled" false
    embeddingModel := getConfigText rt rows "defense_assets.embedding_model" "text-embedding-3-small" }

/-- `load_tool_gateway_config` -/
def loadToolGatewayConfig : Except Exn ToolGatewayConfig := do
  let timeoutSeconds ← getConfigInt int rows "tools.gateway_timeout_seconds" 30
  pure {
    timeoutSeconds
    enabled := getConfigBool rows "tools.gateway_enabled" false
    auditAllCalls := getConfigBool rows "tools.gateway_audit_all_calls" true }

end

/-- The intervals that `configure_scheduler_from_db` and its like read. -/
def pollIntervals : List (String × ℤ) :=
  [("ingestion.poll_interval_minutes", 5), ("triage.poll_interval_minutes", 2),
    ("event.aggregation_poll_interval_minutes", 2), ("investigation.poll_interval_minutes", 3),
    ("human_review.poll_interval_minutes", 2), ("defense_assets.poll_interval_minutes", 5)]

def directInts : List (String × ℤ) :=
  [("investigation.correlation_window_hours", 72), ("entity.graph_max_hops", 2),
    ("entity.graph_max_nodes", 30), ("investigation.target_tokens_per_event", 10000)]

def directBools : List (String × Bool) :=
  [("investigation.auto_raise_priority_on_correlation", true), ("entity.graph_enabled", true),
    ("investigation.hypothesis_template_enabled", true), ("investigation.metrics_enabled", true),
    ("investigation.supervisor_enabled", true),
    ("eval.require_closure_pass_for_regression", true)]

structure ConfigDefault where
  key : String
  value : Json
  description : String

/-- `{"value": value}` -/
def Json.valued (value : Json) : Json := .obj [("value", value)]

/-- `{"weights": DEFAULT_CATEGORY_RISK}` -/
def weightsRow (value : ℚ → Json) : Json :=
  .obj [("weights", .obj (({} : TriageConfig).categoryRisk.map fun (k, q) => (k, value q)))]

/-- The list of `ensure_ingestion_defaults`. -/
abbrev ingestionDefaults : List ConfigDefault :=
  [⟨"ingestion.poll_interval_minutes", (Json.int 5).valued,
    "Interval in minutes between scheduled ingestion polls"⟩]

/-- The list of `ensure_triage_defaults`. -/
abbrev triageDefaults : List ConfigDefault :=
  [⟨"triage.dedup_window_minutes", (Json.int 60).valued, "Dedup sliding window in minutes"⟩,
    ⟨"triage.deep_review_threshold", (Json.int 70).valued,
      "Effective score threshold for deep review queue"⟩,
    ⟨"triage.low_risk_threshold", (Json.int 30).valued,
      "Below this score alerts may be archived as low risk"⟩,
    ⟨"triage.uncertain_band_low", (Json.int 30).valued, "Lower bound of uncertain score band"⟩,
    ⟨"triage.uncertain_band_high", (Json.int 70).valued, "Upper bound of uncertain score band"⟩,
    ⟨"triage.sample_audit_rate", (Json.float (1 / 100)).valued,
      "Random audit rate for archived low-risk alerts"⟩,
    ⟨"triage.llm_assist_enabled", (Json.bool false).valued,
      "Enable optional LLM assist scoring in triage"⟩,
    ⟨"triage.llm_weight", (Json.float (15 / 100)).valued, "LLM weight in effective triage score"⟩,
    ⟨"triage.batch_size", (Json.int 500).valued, "Max NEW alerts processed per triage run"⟩,
    ⟨"triage.poll_interval_minutes", (Json.int 2).valued, "Interval between triage scheduler runs"⟩,
    ⟨"triage.category_risk",
      weightsRow .float,
      "Static category risk weights for rule scoring"⟩]

/-- The list of `ensure_aggregation_defaults`. -/
abbrev aggregationDefaults : List ConfigDefault :=
  [⟨"event.aggregation_window_hours", (Json.int 24).valued, "UTC-aligned aggregation window hours"⟩,
    ⟨"event.aggregation_batch_size", (Json.int 500).valued, "Max alerts aggregated per run"⟩,
    ⟨"event.aggregation_poll_interval_minutes", (Json.int 2).valued,
      "Aggregation scheduler interval"⟩,
    ⟨"event.unknown_host_sentinel", (Json.str "__unknown_host__").valued,
      "Sentinel when host_name missing"⟩,
    ⟨"event.unknown_user_sentinel", (Json.str "__unknown_user__").valued,
      "Sentinel when user_name missing"⟩]

/-- The list of `ensure_investigation_defaults`. -/
abbrev investigationDefaults : List ConfigDefault :=
  [⟨"investigation.poll_interval_minutes", (Json.int 3).valued,
      "Agent investigation scheduler interval"⟩,
    ⟨"investigation.batch_size", (Json.int 5).valued, "Max events investigated per run"⟩,
    ⟨"investigation.max_steps", (Json.int 15).valued, "Max ReAct steps per investigation"⟩,
    ⟨"investigation.max_skill_calls", (Json.int 20).valued,
      "Max skill invocations per investigation"⟩,
    ⟨"investigation.daily_event_budget", (Json.int 200).valued,
      "Daily deep investigation event budget"⟩,
    ⟨"investigation.model_name", (Json.str "deepseek-chat").valued,
      "Default LLM for investigations"⟩,
    ⟨"investigation.reasoner_enabled", (Json.bool false).valued,
      "Reserved: enable reasoner re-run"⟩,
    ⟨"investigation.alert_prompt_limit", (Json.int 20).valued,
      "Max alerts injected into investigation prompt"⟩]

/-- The list of `ensure_human_review_defaults`. -/
abbrev humanReviewDefaults : List ConfigDefault :=
  [⟨"human_review.enabled", (Json.bool true).valued, "Enable IM human review dispatch"⟩,
    ⟨"human_review.channel", (Json.str "wecom").valued, "IM channel adapter type"⟩,
    ⟨"human_review.poll_interval_minutes", (Json.int 2).valued, "Human review scheduler interval"⟩,
    ⟨"human_review.batch_size", (Json.int 10).valued, "Max review requests sent per run"⟩,
    ⟨"human_review.timeout_hours", (Json.int 24).valued, "Hours before sent request expires"⟩,
    ⟨"human_review.max_resend", (Json.int 2).valued, "Max resends after expiry per event"⟩,
    ⟨"human_review.reinvestigation_enabled", (Json.bool true).valued,
      "Re-run Agent after human reply"⟩,
    ⟨"human_review.reinvestigation_counts_budget", (Json.bool false).valued,
      "Whether reinvestigation counts toward daily budget"⟩,
    ⟨"human_review.wecom_to_user", (Json.str "@all").valued, "WeCom recipient userid"⟩,
    ⟨"human_review.message_max_chars", (Json.int 1800).valued, "Max outbound markdown length"⟩,
    ⟨"audit_sample.enabled", (Json.bool true).valued, "Enable audit sample generation"⟩,
    ⟨"audit_sample.notify_via_im", (Json.bool false).valued, "Push audit samples via IM"⟩]

/-- The list of `ensure_defense_asset_defaults`. -/
abbrev defenseAssetDefaults : List ConfigDefault :=
  [⟨"defense_assets.enabled", (Json.bool true).valued, "Enable defense asset sedimentation"⟩,
    ⟨"defense_assets.poll_interval_minutes", (Json.int 5).valued,
      "Asset pipeline scheduler interval"⟩,
    ⟨"defense_assets.batch_size", (Json.int 20).valued, "Max events settled per run"⟩,
    ⟨"defense_assets.auto_close_event", (Json.bool true).valued,
      "Close event after judgment case written"⟩,
    ⟨"defense_assets.require_disposition_confirm", (Json.bool false).valued,
      "Require disposition confirm before closing event"⟩,
    ⟨"defense_assets.whitelist_promotion_threshold", (Json.int 3).valued,
      "Confirmations to promote whitelist"⟩,
    ⟨"defense_assets.whitelist_rule_ttl_days", (Json.int 365).valued,
      "Promoted whitelist rule validity days"⟩,
    ⟨"defense_assets.create_whitelist_on_fp_only", (Json.bool true).valued,
      "Only create whitelist candidates for false positive verdicts"⟩,
    ⟨"defense_assets.embedding_enabled", (Json.bool false).valued,
      "Compute judgment case embeddings"⟩,
    ⟨"defense_assets.embedding_search_enabled", (Json.bool false).valued,
      "Use embedding search in Agent prompt"⟩,
    ⟨"defense_assets.embedding_model", (Json.str "text-embedding-3-small").valued,
      "Embedding model name"⟩,
    ⟨"audit_sample.auto_confirm_whitelist", (Json.bool false).valued,
      "Audit sample FP auto-confirms whitelist"⟩]

/-- The list of `ensure_eval_defaults`. -/
abbrev evalDefaults : List ConfigDefault :=
  [⟨"eval.regression_enabled", (Json.bool true).valued, "Enable regression test runner"⟩,
    ⟨"eval.regression_use_real_llm_default", (Json.bool false).valued,
      "Default use real LLM for regression"⟩,
    ⟨"eval.regression_cron", Json.null.valued, "Cron for regression (null=disabled)"⟩,
    ⟨"eval.health_check_enabled", (Json.bool true).valued, "Enable health check runner"⟩,
    ⟨"eval.health_check_cron", Json.null.valued, "Cron for health checks (null=disabled)"⟩,
    ⟨"eval.health_check_agent_mock_verdict",
      (Json.str InvestigationVerdict.likelyFalsePositive.value).valued,
      "Mock verdict for health-check agent stage"⟩,
    ⟨"eval.probe_retention_days", (Json.int 7).valued, "Days to retain probe alerts/events"⟩,
    ⟨"eval.alert_webhook_url", Json.null.valued, "Optional webhook URL on eval failure"⟩]

/-- The transactions in which `lifespan` writes the defaults; some need a licence. -/
abbrev lifespanDefaults (pro : Bool) : List (List ConfigDefault) :=
  [triageDefaults, aggregationDefaults, ingestionDefaults] ++
    if pro then [investigationDefaults, humanReviewDefaults, defenseAssetDefaults, evalDefaults]
    else []

/-- The rows of the migrations, where they are not those of the application. -/
abbrev migrationSeeds : List (String × Json) :=
  [("triage.category_risk", weightsRow fun q => .int q.num),
    ("console.session_expire_hours", (Json.int 8).valued),
    ("console.page_size_default", (Json.int 20).valued),
    ("entity.graph_enabled", (Json.bool true).valued),
    ("entity.graph_max_hops", (Json.int 2).valued),
    ("entity.graph_max_nodes", (Json.int 30).valued),
    ("entity.relation_ttl_days", (Json.int 365).valued),
    ("investigation.hypothesis_template_enabled", (Json.bool true).valued),
    ("investigation.require_refutation_attempt", (Json.bool true).valued),
    ("investigation.min_refuting_hints_checked", (Json.int 1).valued),
    ("investigation.closure_enabled", (Json.bool true).valued),
    ("investigation.min_evidence_closure_score", (Json.float (6 / 10)).valued),
    ("investigation.min_refutation_coverage_for_attack", (Json.float (1 / 2)).valued),
    ("investigation.max_closure_retries", (Json.int 2).valued),
    ("investigation.supervisor_enabled", (Json.bool true).valued),
    ("investigation.supervisor_block_on_fail", (Json.bool false).valued),
    ("investigation.metrics_enabled", (Json.bool true).valued),
    ("investigation.target_tokens_per_event", (Json.int 10000).valued),
    ("investigation.correlation_window_hours", (Json.int 72).valued),
    ("triage.llm_assist_route_filter", (Json.arr [.str "queue_uncertain"]).valued),
    ("triage.llm_assist_max_per_run", (Json.int 20).valued),
    ("eval.require_closure_pass_for_regression", (Json.bool true).valued),
    ("disposition.simulation_enabled", (Json.bool false).valued),
    ("disposition.require_approval", (Json.bool true).valued),
    ("disposition.allowed_action_types",
      (Json.arr [.str "block_ip", .str "isolate_host", .str "disable_user"]).valued),
    ("investigation.auto_raise_priority_on_correlation", (Json.bool true).valued),
    ("eval.entity_graph_mock_fixtures", (Json.obj []).valued),
    ("tools.gateway_enabled", (Json.bool false).valued),
    ("tools.gateway_timeout_seconds", (Json.int 30).valued),
    ("tools.gateway_audit_all_calls", (Json.bool true).valued)]

/-- What the application and the migrations write where nobody has set anything. -/
abbrev configSeeds : List (String × Json) :=
  ((lifespanDefaults true).flatten.map fun d => (d.key, d.value)) ++ migrationSeeds

end Minsight

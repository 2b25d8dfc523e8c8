import Minsight.Foundation.Decimal
import Minsight.Model.World

/-! # Triage configuration and context -/

namespace Minsight

structure TriageConfig where
  dedupWindowMinutes : ℤ := 60
  deepReviewThreshold : ℚ := 70
  lowRiskThreshold : ℚ := 30
  uncertainBandLow : ℚ := 30
  uncertainBandHigh : ℚ := 70
  sampleAuditRate : ℚ := 1 / 100
  llmAssistEnabled : Bool := false
  llmWeight : ℚ := 15 / 100
  llmAssistRouteFilter : List String := ["queue_uncertain"]
  llmAssistMaxPerRun : ℤ := 20
  profileHintCap : ℚ := 20
  profileHintScoreDiscountCap : ℚ := 6
  categoryRisk : List (String × ℚ) :=
    [("brute_force", 90), ("malware", 95), ("web_attack", 85), ("network_intrusion", 88),
      ("file_integrity", 70), ("login_anomaly", 75), ("authentication", 60), ("firewall", 55),
      ("windows_event", 50), ("host_anomaly", 65), ("syslog", 40), ("compliance", 35),
      ("data_exfiltration", 92), ("privilege_escalation", 93), ("uncategorized", 50)]
  batchSize : ℤ := 500

/-- An alert as the batch loaded it. -/
structure AlertSnapshot where
  id : ℕ
  dataSourceName : String
  row : Alert

structure TriageContext where
  alert : AlertSnapshot
  dedupHit : Bool := false
  dedupGroupId : Option ℕ := none
  isRepresentative : Bool := true
  whitelistRuleId : Option ℕ := none
  profileHintScore : ℚ := 0
  ruleScore : ℚ := 0
  effectiveScore : ℚ := 0
  llmAssistScore : Option ℚ := none
  llmCacheKey : Option String := none
  routeDecision : Option RouteDecision := none
  shortCircuit : Bool := false

/-- Where the processing of one alert can fail on something outside the program. -/
inductive TriagePoint
  | dedup | whitelist | profileHint | frequency | assetScore | persist | commit
  deriving DecidableEq, Repr

/-- What the outside world answers while one alert is triaged. -/
structure TriageEnv where
  dedupNow : Time
  whitelistNow : Time := dedupNow
  profileNow : Time := whitelistNow
  frequencyNow : Time := profileNow
  llmNow : Time := frequencyNow
  persistNow : Time := llmNow
  redisUp : Bool := true
  /-- The text of what the class of the alert snapshot has under a name that is no field. -/
  classAttribute : String → Option String := fun _ => none
  /-- The draw of the router's random generator. -/
  draw : ℚ := 1
  /-- The score read off the model's answer, or what asking for it raises. -/
  llmScore : Except Exn ℚ := .error .external
  faults : TriagePoint → Option Exn := fun _ => none

end Minsight

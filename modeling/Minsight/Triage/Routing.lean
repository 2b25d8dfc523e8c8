import Minsight.Aggregation.Key
import Minsight.Triage.Effects

/-! # Routes

The LLM assist predicts the route of a score before the router chooses it. The two decide alike,
except that the router may sample an alert that it would archive.
-/

namespace Minsight

/-- A sampled alert counts as archived. -/
def RouteDecision.unsampled : RouteDecision → RouteDecision
  | .sampleAudit => .archiveLowRisk
  | route => route

@[simp] theorem isQueue_unsampled (route : RouteDecision) :
    route.unsampled.isQueue = route.isQueue := by
  cases route <;> rfl

@[simp] theorem routePriority_unsampled (route : RouteDecision) :
    routePriority route.unsampled = routePriority route := by
  cases route <;> rfl

variable {config : TriageConfig} {env : TriageEnv} {ctx : TriageContext}

theorem routeHandle_predicted (h : ctx.routeDecision = none) :
    ∃ route, (routeHandle config env ctx).routeDecision = some route ∧
      route.unsampled = predictRouteDecision config ctx.effectiveScore := by
  rw [routeHandle, if_neg (by simp [h])]
  refine ⟨_, rfl, ?_⟩
  unfold predictRouteDecision
  by_cases hdeep : config.deepReviewThreshold ≤ ctx.effectiveScore
  · simp only [if_pos hdeep, RouteDecision.unsampled]
  · by_cases hband : config.uncertainBandLow ≤ ctx.effectiveScore ∧
        ctx.effectiveScore < config.uncertainBandHigh
    · simp only [if_neg hdeep, if_pos hband, RouteDecision.unsampled]
    · by_cases hlow : ctx.effectiveScore < config.lowRiskThreshold
      · simp only [if_neg hdeep, if_neg hband, if_pos hlow]
        split_ifs <;> rfl
      · simp only [if_neg hdeep, if_neg hband, if_neg hlow, RouteDecision.unsampled]

theorem routeHandle_scores : (routeHandle config env ctx).ruleScore = ctx.ruleScore ∧
    (routeHandle config env ctx).effectiveScore = ctx.effectiveScore := by
  unfold routeHandle
  split
  · exact ⟨rfl, rfl⟩
  · exact ⟨rfl, rfl⟩

end Minsight

import Minsight.Triage.Hints
import Mathlib.Tactic.IntervalCases

/-! # Triage follows the risk

Each part of the rule score grows with what it measures, and with the default thresholds the routes
are ordered as the scores are. So of two alerts with the same hints the riskier one gets the higher
score and the more urgent route, in exact arithmetic as in doubles.
-/

namespace Minsight

open Tx Session

theorem severityScore_mono : MonotoneOn severityScore (Set.Icc 1 5) := by
  rintro s ⟨hs, hs'⟩ t ⟨ht, ht'⟩ hst
  interval_cases s <;> interval_cases t <;> first | omega | norm_num [severityScore]

theorem frequencyScoreFromCount_mono : Monotone frequencyScoreFromCount := by
  intro m n h
  have hcount : (m : ℚ) * 15 ≤ n * 15 :=
    mul_le_mul_of_nonneg_right (Nat.cast_le.mpr h) (by norm_num)
  exact min_le_min_left _ (max_le_max_left _ hcount)

theorem discounted_mono (a : Arithmetic) (discount : ℚ) : Monotone (discounted a · discount) := by
  intro s t h
  apply a.roundTo_mono
  exact max_le_max_left _ (a.mono (sub_le_sub_right h _))

theorem weighted_mono {a : Arithmetic} {sev sev' freq freq' asset asset' category category' : ℚ}
    (hsev : sev ≤ sev') (hfreq : freq ≤ freq') (hasset : asset ≤ asset')
    (hcategory : category ≤ category') :
    weighted a sev freq asset category ≤ weighted a sev' freq' asset' category' := by
  have hterm {part part' weight : ℚ} (hweight : 0 ≤ weight) (h : part ≤ part') :
      a.round (part * a.round weight) ≤ a.round (part' * a.round weight) :=
    a.mono (mul_le_mul_of_nonneg_right h (a.round_nonneg hweight))
  apply a.sum_le_sum
  refine .cons (hterm (by norm_num) hsev) (.cons (hterm (by norm_num) hfreq) ?_)
  exact .cons (hterm (by norm_num) hasset) (.cons (hterm (by norm_num) hcategory) .nil)

theorem DefaultThresholds.predicted {config : TriageConfig} (h : DefaultThresholds config)
    (score : ℚ) : predictRouteDecision config score =
      if 70 ≤ score then .queueDeepReview
      else if 30 ≤ score then .queueUncertain
      else .archiveLowRisk := by
  rw [predictRouteDecision, h.deep, h.low, h.bandLow, h.bandHigh]
  by_cases hdeep : 70 ≤ score
  · rw [if_pos hdeep, if_pos hdeep]
  · rw [if_neg hdeep, if_neg hdeep]
    by_cases hlow : 30 ≤ score
    · rw [if_pos ⟨hlow, not_le.mp hdeep⟩, if_pos hlow]
    · rw [if_neg fun hband => hlow hband.1, if_pos (not_le.mp hlow), if_neg hlow]

theorem isQueue_of_priority {route route' : RouteDecision}
    (h : routePriority route ≤ routePriority route') (hqueue : route.isQueue = true) :
    route'.isQueue = true := by
  cases route <;> cases route' <;> simp_all [routePriority, RouteDecision.isQueue]

theorem DefaultThresholds.priority_mono {config config' : TriageConfig} {score score' : ℚ}
    (h : DefaultThresholds config) (h' : DefaultThresholds config') (hle : score ≤ score') :
    routePriority (predictRouteDecision config score) ≤
      routePriority (predictRouteDecision config' score') := by
  rw [h.predicted, h'.predicted]
  split_ifs <;> first | decide | linarith

/-- The triage of an alert that neither dedup nor the whitelist cuts short, to its end. -/
structure Evaluation (rt : Runtime) where
  config : TriageConfig
  env : TriageEnv
  alert : AlertSnapshot
  world : World
  screened : TriageContext
  screenedWorld : World
  result : TriageContext
  final : World
  default : DefaultThresholds config
  screens : exec (screen rt config env { alert }) world = (.ok screened, screenedWorld)
  passes : screened.shortCircuit = false
  returns : exec (pipelineRun rt config env { alert }) world = (.ok result, final)

namespace Evaluation

variable {rt : Runtime} (x : Evaluation rt)

/-- The count `get_frequency_count` returns. -/
def frequencyCount : ℕ :=
  (returned (getFrequencyCount rt x.env x.alert) (hintedWorld rt x.env x.screenedWorld)).getD 0

def assetScore : ℚ := Minsight.assetScore x.screenedWorld.db x.alert.row

def categoryWeight : ℚ := categoryRiskScore x.alert.row.alertCategory x.config.categoryRisk

def hintScore : ℚ := Minsight.hintScore rt x.config x.env x.screenedWorld x.alert

def score : ℚ :=
  discounted rt.arith (weighted rt.arith (severityScore x.alert.row.severity)
    (frequencyScoreFromCount x.frequencyCount) x.assetScore x.categoryWeight)
    (hintDiscount rt.arith 6 x.hintScore)

theorem routedBy : RoutedBy x.config x.score x.result := by
  obtain ⟨halert, hroute⟩ := screen_open x.screens x.passes
  have hrun := x.returns
  rw [← hintedRun_id] at hrun
  obtain ⟨ctx, w, hscreens, hrun⟩ := exec_bind_ok.mp hrun
  obtain ⟨rfl, rfl⟩ : x.screened = ctx ∧ x.screenedWorld = w := by
    simpa using x.screens.symm.trans hscreens
  have hrouted := scoreAndRoute_routedBy x.default.llmOff x.passes hroute hrun
  rw [halert, x.default.discountCap] at hrouted
  exact hrouted

/-- The priority of the route the alert gets. -/
def priority : ℤ := x.result.routeDecision.elim 0 routePriority

theorem priority_eq : x.priority = routePriority (predictRouteDecision x.config x.score) := by
  obtain ⟨route, hroute, hpredicted⟩ := x.routedBy.route
  rw [priority, hroute, Option.elim_some, ← hpredicted, routePriority_unsampled]

end Evaluation

variable {rt : Runtime} {x y : Evaluation rt}

/--
Of two evaluations with the same hint score, the one that is at least as risky in severity,
frequency, asset and category has at least the score of the other, is queued when the other is, and
has a route of at least its priority.
-/
theorem triage_follows_risk (hx : x.alert.row.severity ∈ Set.Icc 1 5)
    (hy : y.alert.row.severity ∈ Set.Icc 1 5) (hhint : x.hintScore = y.hintScore)
    (hseverity : x.alert.row.severity ≤ y.alert.row.severity)
    (hfrequency : x.frequencyCount ≤ y.frequencyCount) (hasset : x.assetScore ≤ y.assetScore)
    (hcategory : x.categoryWeight ≤ y.categoryWeight) :
    x.result.ruleScore ≤ y.result.ruleScore ∧ (Queued x.result → Queued y.result) ∧
      x.priority ≤ y.priority := by
  have hscore : x.score ≤ y.score := by
    rw [Evaluation.score, Evaluation.score, hhint]
    apply discounted_mono
    exact weighted_mono (severityScore_mono hx hy hseverity)
      (frequencyScoreFromCount_mono hfrequency) hasset hcategory
  have hpriority : x.priority ≤ y.priority := by
    rw [x.priority_eq, y.priority_eq]
    exact x.default.priority_mono y.default hscore
  refine ⟨?_, ?_, hpriority⟩
  · rw [x.routedBy.ruleScore, y.routedBy.ruleScore]
    exact hscore
  · rw [x.routedBy.queued, y.routedBy.queued]
    apply isQueue_of_priority
    rwa [← x.priority_eq, ← y.priority_eq]

/-- The alert of the flagged host at a severity, triaged in a world of its own. -/
def flaggedEvaluation (severity : ℤ)
    (hscreens : (returned (screen (sampleRuntime .free []) {} { dedupNow := 0 }
      { alert := flaggedAlert severity }) (flaggedWorld severity)).any (!·.shortCircuit) = true)
    (hreturns : (returned (pipelineRun (sampleRuntime .free []) {} { dedupNow := 0 }
      { alert := flaggedAlert severity }) (flaggedWorld severity)).isSome = true) :
    Evaluation (sampleRuntime .free []) where
  config := {}
  env := { dedupNow := 0 }
  alert := flaggedAlert severity
  world := flaggedWorld severity
  screened := (returned (screen _ _ _ _) (flaggedWorld severity)).getD { alert := flaggedAlert 1 }
  screenedWorld := (exec (screen _ _ _ _) (flaggedWorld severity)).2
  result :=
    (returned (pipelineRun _ _ _ _) (flaggedWorld severity)).getD { alert := flaggedAlert 1 }
  final := (exec (pipelineRun _ _ _ _) (flaggedWorld severity)).2
  default := ⟨⟨rfl, rfl, rfl⟩, rfl, rfl, rfl, rfl⟩
  screens := by
    obtain ⟨c, hc, -⟩ := (Option.any_eq_true _ _).mp hscreens
    exact exec_of_returned (by rw [hc, Option.getD_some])
  passes := by
    obtain ⟨c, hc, hopen⟩ := (Option.any_eq_true _ _).mp hscreens
    rw [hc]
    simpa using hopen
  returns := by
    obtain ⟨c, hc⟩ := Option.isSome_iff_exists.mp hreturns
    exact exec_of_returned (by rw [hc, Option.getD_some])

def mildEvaluation : Evaluation (sampleRuntime .free []) :=
  flaggedEvaluation 2 (by decide +kernel) (by decide +kernel)

def severeEvaluation : Evaluation (sampleRuntime .free []) :=
  flaggedEvaluation 5 (by decide +kernel) (by decide +kernel)

theorem triage_follows_risk_severity :
    mildEvaluation.result.ruleScore ≤ severeEvaluation.result.ruleScore ∧
      (Queued mildEvaluation.result → Queued severeEvaluation.result) ∧
      mildEvaluation.priority ≤ severeEvaluation.priority := by
  have hparts : mildEvaluation.hintScore = severeEvaluation.hintScore ∧
      mildEvaluation.frequencyCount ≤ severeEvaluation.frequencyCount ∧
      mildEvaluation.assetScore ≤ severeEvaluation.assetScore ∧
      mildEvaluation.categoryWeight ≤ severeEvaluation.categoryWeight := by decide +kernel
  exact triage_follows_risk ⟨by decide, by decide⟩ ⟨by decide, by decide⟩ hparts.1 (by decide)
    hparts.2.1 hparts.2.2.1 hparts.2.2.2

end Minsight

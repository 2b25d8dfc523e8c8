import Minsight.Triage.Routing

/-! # Profile hints and routes

The hint score of an alert lowers its rule score before the router compares it with its
thresholds, so a hint can move an alert from a queue to the archive. The pipeline is compared with
the same pipeline without the hints.
-/

namespace Minsight

open Tx Session

section

variable (rt : Runtime) (config : TriageConfig) (env : TriageEnv)

/-- What `load_triage_config` leaves at its defaults, with the LLM assist turned off. -/
structure LoadedConfig : Prop where
  hintCap : config.profileHintCap = 20
  discountCap : config.profileHintScoreDiscountCap = 6
  llmOff : config.llmAssistEnabled = false

/-- The configuration with its default thresholds and the LLM assist turned off. -/
structure DefaultThresholds : Prop extends LoadedConfig config where
  deep : config.deepReviewThreshold = 70
  low : config.lowRiskThreshold = 30
  bandLow : config.uncertainBandLow = 30
  bandHigh : config.uncertainBandHigh = 70

/-- The handlers before scoring, up to the whitelist. -/
def screen (ctx : TriageContext) : Session TriageContext := do
  let ctx ← dedupHandle rt config env ctx
  whitelistHandle rt env ctx

def beforeScoring (ctx : TriageContext) : Session TriageContext := do
  let ctx ← screen rt config env ctx
  profileHintHandle rt config env ctx

/-- The handlers after the whitelist, with `hint` applied to the hint score. -/
def scoreAndRoute (hint : ℚ → ℚ) (ctx : TriageContext) : Session TriageContext := do
  let ctx ← profileHintHandle rt config env ctx
  let ctx ← ruleScoreHandle rt config env { ctx with
    profileHintScore := hint ctx.profileHintScore }
  let ctx ← llmAssistHandle rt config env ctx
  persistHandle rt env (routeHandle config env ctx)

/-- The pipeline with `hint` applied to the hint score. -/
def hintedRun (hint : ℚ → ℚ) (ctx : TriageContext) : Session TriageContext := do
  let ctx ← screen rt config env ctx
  scoreAndRoute rt config env hint ctx

theorem hintedRun_id (ctx : TriageContext) :
    hintedRun rt config env id ctx = pipelineRun rt config env ctx := by
  simp only [hintedRun, screen, scoreAndRoute, pipelineRun, bind_assoc]
  rfl

def hintedWorld (w : World) : World :=
  { w with out := { w.out with clock := rt.clock.reading w.out.clock env.profileNow } }

/-- What the profiles, memories and notes of the world count for an alert. -/
def hintPoints (w : World) (alert : AlertSnapshot) : List ℚ :=
  let now := rt.clock.reading w.out.clock env.profileNow
  entityHints rt w.db now .ip alert.row.srcIp ++ entityHints rt w.db now .host alert.row.hostName
    ++ entityHints rt w.db now .user alert.row.userName
    ++ if knowledgeApplies rt env w.db now alert then [5] else []

def hintScore (w : World) (alert : AlertSnapshot) : ℚ :=
  min config.profileHintCap (rt.arith.sum (hintPoints rt env w alert))

/-- The weighted score of an alert, before hints lower it. -/
def weightedScore (w : World) (alert : AlertSnapshot) : ℚ :=
  let count := (returned (getFrequencyCount rt env alert) (hintedWorld rt env w)).getD 0
  weighted rt.arith (severityScore alert.row.severity) (frequencyScoreFromCount count)
    (assetScore w.db alert.row) (categoryRiskScore alert.row.alertCategory config.categoryRisk)

/-- The weighted score less what its hint points take off. -/
def loweredScore (w : World) (alert : AlertSnapshot) : ℚ :=
  rt.arith.round (weightedScore rt config env w alert
    - hintDiscount rt.arith 6 (min 20 (rt.arith.sum (hintPoints rt env w alert))))

def discounted (a : Arithmetic) (score discount : ℚ) : ℚ :=
  a.roundTo 2 (max 0 (a.round (score - discount)))

def Archives (score : ℚ) : Prop :=
  score < config.deepReviewThreshold ∧ score < config.lowRiskThreshold ∧
    (score < config.uncertainBandLow ∨ config.uncertainBandHigh ≤ score)

instance (score : ℚ) : Decidable (Archives config score) := inferInstanceAs (Decidable (_ ∧ _))

/-- A score that is at least a threshold when it is rounded to hundredths. -/
def Reaches (a : Arithmetic) (threshold score : ℚ) : Prop := threshold ≤ a.roundTo 2 (max 0 score)

instance (a : Arithmetic) (threshold score : ℚ) : Decidable (Reaches a threshold score) :=
  inferInstanceAs (Decidable (_ ≤ _))

def Crosses (a : Arithmetic) (threshold score lowered : ℚ) : Prop :=
  Reaches a threshold score ∧ ¬ Reaches a threshold lowered

instance (a : Arithmetic) (threshold score lowered : ℚ) :
    Decidable (Crosses a threshold score lowered) := inferInstanceAs (Decidable (_ ∧ _))

/--
Lowering the score crosses a threshold below which it is archived: the lower end of the uncertain
band it was in, or the least score that is queued whatever the band, while the band does not catch
it.
-/
def CrossesArchive (a : Arithmetic) (score lowered : ℚ) : Prop :=
  let floor := min config.deepReviewThreshold config.lowRiskThreshold
  Crosses a config.uncertainBandLow score lowered ∧ ¬ Reaches a config.uncertainBandHigh score ∧
      ¬ Reaches a floor lowered ∨
    Crosses a floor score lowered ∧
      (Reaches a config.uncertainBandLow lowered → Reaches a config.uncertainBandHigh lowered)

instance (a : Arithmetic) (score lowered : ℚ) : Decidable (CrossesArchive config a score lowered) :=
  inferInstanceAs (Decidable (_ ∧ _ ∨ _ ∧ _))

/-- The alert of the context is routed to a queue. -/
def Queued (ctx : TriageContext) : Prop :=
  ∃ route, ctx.routeDecision = some route ∧ route.isQueue = true

end

variable {rt : Runtime} {config : TriageConfig} {env : TriageEnv} {ctx c : TriageContext}
  {w w' : World} {hint : ℚ → ℚ}

theorem screen_open {alert : AlertSnapshot}
    (h : exec (screen rt config env { alert }) w = (.ok c, w')) (hopen : c.shortCircuit = false) :
    c.alert = alert ∧ c.routeDecision = none := by
  obtain ⟨c', w₁, hdedup, hwhitelist⟩ := exec_bind_ok.mp h
  have hunrouted := whitelistHandle_returns (dedupHandle_returns _ _ _ hdedup) _ _ _ hwhitelist
  have hshort := hunrouted.short
  rw [hopen] at hshort
  exact ⟨hunrouted.alert, by simpa using hshort⟩

theorem beforeScoring_unrouted {alert : AlertSnapshot}
    (h : exec (beforeScoring rt config env { alert }) w = (.ok c, w')) : Unrouted alert c := by
  obtain ⟨c₂, w₂, hscreen, hprofile⟩ := exec_bind_ok.mp h
  obtain ⟨c₁, w₁, hdedup, hwhitelist⟩ := exec_bind_ok.mp hscreen
  apply profileHintHandle_returns _ _ _ _ hprofile
  apply whitelistHandle_returns _ _ _ _ hwhitelist
  exact dedupHandle_returns _ _ _ hdedup

theorem beforeScoring_respects {r : World → World → Prop} [Std.Refl r] [IsTrans World r]
    (h : AllowsGrouping rt r) : Respects r (beforeScoring rt config env ctx) := by
  apply Respects.bind
  · exact (dedupHandle_respects h).bind fun _ => whitelistHandle_respects h.clock
  · intro ctx
    exact profileHintHandle_respects h.clock

structure SameRoute (ctx c : TriageContext) : Prop where
  alert : c.alert = ctx.alert
  route : c.routeDecision = ctx.routeDecision
  short : c.shortCircuit = ctx.shortCircuit

theorem profileHintHandle_open (hopen : ctx.shortCircuit = false)
    (h : exec (profileHintHandle rt config env ctx) w = (.ok c, w')) :
    c.profileHintScore = hintScore rt config env w ctx.alert ∧ SameRoute ctx c ∧
      w' = hintedWorld rt env w := by
  rw [profileHintHandle, if_neg (by simp [hopen])] at h
  simp only [exec_utcNow_bind, exec_fallible_bind_ok, exec_query_bind, exec_pure, Prod.mk.injEq,
    Except.ok.injEq, id] at h
  obtain ⟨-, rfl, rfl⟩ := h
  exact ⟨rfl, ⟨rfl, rfl, rfl⟩, rfl⟩

theorem getFrequencyCount_db {alert : AlertSnapshot} {n : ℕ}
    (h : exec (getFrequencyCount rt env alert) w = (.ok n, w')) : w'.db = w.db := by
  simp only [getFrequencyCount, exec_utcNow_bind] at h
  split at h
  · simp only [exec_redis_bind, exec_setRedis_bind, exec_pure, Prod.mk.injEq] at h
    rw [← h.2]
  · simp only [exec_fallible_bind_ok, exec_query, Prod.mk.injEq] at h
    rw [← h.2.2]

theorem ruleScoreHandle_open (hopen : ctx.shortCircuit = false)
    (h : exec (ruleScoreHandle rt config env ctx) (hintedWorld rt env w) = (.ok c, w')) :
    c.ruleScore = discounted rt.arith (weightedScore rt config env w ctx.alert)
        (hintDiscount rt.arith config.profileHintScoreDiscountCap ctx.profileHintScore) ∧
      c.effectiveScore = c.ruleScore ∧ SameRoute ctx c := by
  rw [ruleScoreHandle, if_neg (by simp [hopen])] at h
  obtain ⟨n, w₁, hcount, h⟩ := exec_bind_ok.mp h
  have hn : returned (getFrequencyCount rt env ctx.alert) (hintedWorld rt env w) = some n := by
    rw [returned, hcount]
    rfl
  have hdb : w₁.db = w.db := (getFrequencyCount_db hcount).trans rfl
  simp only [exec_fallible_bind_ok, exec_query_bind, exec_pure, Prod.mk.injEq,
    Except.ok.injEq, hdb] at h
  obtain ⟨-, rfl, -⟩ := h
  refine ⟨?_, rfl, rfl, rfl, rfl⟩
  simp only [discounted, weightedScore, hn, Option.getD_some]

theorem llmAssistHandle_off (hoff : config.llmAssistEnabled = false)
    (h : exec (llmAssistHandle rt config env ctx) w = (.ok c, w')) : c = ctx := by
  simp only [llmAssistHandle, exec_redis_bind, hoff, Bool.not_false, Bool.or_true, if_true,
    exec_pure, Prod.mk.injEq, Except.ok.injEq] at h
  exact h.1.symm

theorem isQueue_predicted {score : ℚ} :
    (predictRouteDecision config score).isQueue = true ↔ ¬ Archives config score := by
  unfold predictRouteDecision
  by_cases hdeep : config.deepReviewThreshold ≤ score
  · simp [hdeep, Archives, RouteDecision.isQueue]
  · by_cases hband : config.uncertainBandLow ≤ score ∧ score < config.uncertainBandHigh
    · simp [hdeep, hband, Archives, RouteDecision.isQueue]
    · by_cases hlow : score < config.lowRiskThreshold
      · have harchives : Archives config score :=
          ⟨not_le.mp hdeep, hlow, (not_and_or.mp hband).imp not_le.mp not_lt.mp⟩
        simp [hdeep, hband, hlow, harchives, RouteDecision.isQueue]
      · simp [hdeep, hband, hlow, Archives, RouteDecision.isQueue]

structure RoutedBy (config : TriageConfig) (score : ℚ) (c : TriageContext) : Prop where
  ruleScore : c.ruleScore = score
  effectiveScore : c.effectiveScore = score
  route : ∃ route, c.routeDecision = some route ∧
    route.unsampled = predictRouteDecision config score

theorem RoutedBy.queued {score : ℚ} (h : RoutedBy config score c) :
    Queued c ↔ (predictRouteDecision config score).isQueue = true := by
  obtain ⟨route, hroute, hpredicted⟩ := h.route
  rw [← hpredicted, isQueue_unsampled, Queued]
  simp [hroute]

/-- With these hints the router compares the discounted score with its thresholds. -/
theorem scoreAndRoute_routedBy (hoff : config.llmAssistEnabled = false)
    (hopen : ctx.shortCircuit = false) (hroute : ctx.routeDecision = none)
    (h : exec (scoreAndRoute rt config env hint ctx) w = (.ok c, w')) :
    RoutedBy config (discounted rt.arith (weightedScore rt config env w ctx.alert)
      (hintDiscount rt.arith config.profileHintScoreDiscountCap
        (hint (hintScore rt config env w ctx.alert)))) c := by
  obtain ⟨c₁, w₁, hprofile, h⟩ := exec_bind_ok.mp h
  obtain ⟨hhint, hsame₁, rfl⟩ := profileHintHandle_open hopen hprofile
  obtain ⟨c₂, w₂, hrule, h⟩ := exec_bind_ok.mp h
  obtain ⟨hscore, heffective, hsame₂⟩ :=
    ruleScoreHandle_open (by exact hsame₁.short.trans hopen) hrule
  obtain ⟨c₃, w₃, hllm, hpersist⟩ := exec_bind_ok.mp h
  obtain rfl := llmAssistHandle_off hoff hllm
  obtain ⟨rfl, -⟩ := persistHandle_ok hpersist
  simp only [hhint, hsame₁.alert] at hscore
  obtain ⟨hrouted, heffective'⟩ := @routeHandle_scores config env c₃
  have hunrouted := hsame₂.route.trans (hsame₁.route.trans hroute)
  refine ⟨hrouted.trans hscore, heffective'.trans (heffective.trans hscore), ?_⟩
  rw [← hscore, ← heffective]
  exact routeHandle_predicted hunrouted

/-- With these hints the alert is queued unless the router archives its discounted score. -/
theorem scoreAndRoute_queued (hconfig : LoadedConfig config) (hopen : ctx.shortCircuit = false)
    (hroute : ctx.routeDecision = none)
    (h : exec (scoreAndRoute rt config env hint ctx) w = (.ok c, w')) :
    Queued c ↔ ¬ Archives config (discounted rt.arith (weightedScore rt config env w ctx.alert)
      (hintDiscount rt.arith 6 (hint (hintScore rt config env w ctx.alert)))) := by
  rw [(scoreAndRoute_routedBy hconfig.llmOff hopen hroute h).queued, isQueue_predicted,
    hconfig.discountCap]

section

variable {a : Arithmetic} {x y : ℚ}

theorem archives_of_lowered (hle : y ≤ x) :
    (¬ Archives config (a.roundTo 2 (max 0 x)) → ¬ Archives config (a.roundTo 2 (max 0 y))) ↔
      ¬ CrossesArchive config a x y := by
  have hmono : a.roundTo 2 (max 0 y) ≤ a.roundTo 2 (max 0 x) :=
    a.roundTo_mono 2 (max_le_max_left 0 hle)
  simp only [Archives, CrossesArchive, Crosses, Reaches, min_le_iff]
  grind

theorem DefaultThresholds.crossesArchive_iff (h : DefaultThresholds config) :
    CrossesArchive config a x y ↔ Crosses a 30 x y := by
  simp only [CrossesArchive, Crosses, Reaches, h.deep, h.low, h.bandLow, h.bandHigh]
  grind

theorem reaches_thirty : Reaches .binary64 30 x ↔ 29995 / 1000 ≤ x := by
  have hthirty : Arithmetic.binary64.round ((3000 : ℤ) / 10 ^ 2) = 30 := by decide +kernel
  have hbelow : Arithmetic.binary64.round ((2999 : ℤ) / 10 ^ 2) < 30 := by decide +kernel
  have hhundredths : Reaches .binary64 30 x ↔ 3000 ≤ roundEven (max 0 x * 10 ^ 2) := by
    constructor
    · intro h
      by_contra hlt
      have hle : roundEven (max 0 x * 10 ^ 2) ≤ 2999 := by omega
      have hscaled : (roundEven (max 0 x * 10 ^ 2) : ℚ) / 10 ^ 2 ≤ (2999 : ℤ) / 10 ^ 2 :=
        div_le_div_of_nonneg_right (Int.cast_le.mpr hle) (by norm_num)
      exact absurd (h.trans (Arithmetic.binary64.mono hscaled)) (not_le.mpr hbelow)
    · intro h
      have hscaled : ((3000 : ℤ) : ℚ) / 10 ^ 2 ≤ roundEven (max 0 x * 10 ^ 2) / 10 ^ 2 :=
        div_le_div_of_nonneg_right (Int.cast_le.mpr h) (by norm_num)
      exact hthirty.symm.le.trans (Arithmetic.binary64.mono hscaled)
  rw [hhundredths, le_roundEven_iff (by decide)]
  rcases le_total 0 x with hx | hx
  · rw [max_eq_right hx]
    constructor <;> intro h <;> norm_num at h ⊢ <;> linarith
  · rw [max_eq_left hx]
    constructor
    · intro h
      norm_num at h
    · intro h
      norm_num at h
      linarith

/-- A score of 34.3 lowered by 4.305 is 29.994999999999997. -/
example : ¬ Reaches .binary64 30 (Arithmetic.binary64.round
    (Arithmetic.binary64.round (343 / 10) - Arithmetic.binary64.round (4305 / 1000))) := by
  decide +kernel

end

theorem hintDiscount_nonneg {a : Arithmetic} {cap hint : ℚ} (hcap : 0 ≤ cap) (h : 0 ≤ hint) :
    0 ≤ hintDiscount a cap hint := by
  have hrate : 0 ≤ a.round (3 / 10) := a.round_nonneg (by norm_num)
  exact le_min hcap (a.round_nonneg (mul_nonneg h hrate))

theorem hintDiscount_zero {a : Arithmetic} {cap : ℚ} (hcap : 0 ≤ cap) :
    hintDiscount a cap 0 = 0 := by
  rw [hintDiscount, zero_mul, a.zero, min_eq_right hcap]

theorem entityHints_nonneg {db : Db} {now : Time} {type : EntityType} {key : Option String} :
    ∀ p ∈ entityHints rt db now type key, 0 ≤ p := by
  intro p hp
  unfold entityHints at hp
  split at hp
  · exact absurd hp (List.not_mem_nil)
  · split at hp
    · exact absurd hp (List.not_mem_nil)
    · simp only [List.mem_append, List.mem_filter, decide_eq_true_eq] at hp
      obtain ((hscanner | hjump) | hdecommissioned) | ⟨-, hbonus⟩ := hp
      · split at hscanner <;> simp_all
      · split at hjump <;> simp_all
      · split at hdecommissioned <;> simp_all
      · exact hbonus.le

theorem hintPoints_nonneg {alert : AlertSnapshot} :
    ∀ p ∈ hintPoints rt env w alert, 0 ≤ p := by
  intro p hp
  simp only [hintPoints, List.mem_append] at hp
  obtain ((hip | hhost) | huser) | hnote := hp
  · exact entityHints_nonneg p hip
  · exact entityHints_nonneg p hhost
  · exact entityHints_nonneg p huser
  · split at hnote <;> simp_all

/-- Hints never raise a score. -/
theorem loweredScore_le {alert : AlertSnapshot} :
    loweredScore rt config env w alert ≤ weightedScore rt config env w alert := by
  have hscore : 0 ≤ min 20 (rt.arith.sum (hintPoints rt env w alert)) :=
    le_min (by norm_num) (rt.arith.sum_nonneg hintPoints_nonneg)
  have hdiscount : 0 ≤ hintDiscount rt.arith 6 (min 20 (rt.arith.sum (hintPoints rt env w alert))) :=
    hintDiscount_nonneg (by norm_num) hscore
  calc loweredScore rt config env w alert
      ≤ rt.arith.round (weightedScore rt config env w alert) :=
        rt.arith.mono (sub_le_self _ hdiscount)
    _ = weightedScore rt config env w alert := rt.arith.round_sum _

/--
An alert that is queued without its hints is queued with them if and only if they do not lower its
weighted score across a threshold into the archive.
-/
theorem hints_keep_queue_iff {alert : AlertSnapshot} {c₀ : TriageContext} {w₀ w₁ : World}
    (hconfig : LoadedConfig config)
    (hscreened : exec (screen rt config env { alert }) w = (.ok ctx, w₁))
    (hopen : ctx.shortCircuit = false)
    (hunhinted : exec (hintedRun rt config env (fun _ => 0) { alert }) w = (.ok c₀, w₀))
    (hrun : exec (pipelineRun rt config env { alert }) w = (.ok c, w')) :
    (Queued c₀ → Queued c) ↔
      ¬ CrossesArchive config rt.arith (weightedScore rt config env w₁ alert)
        (loweredScore rt config env w₁ alert) := by
  obtain ⟨halert, hroute⟩ := screen_open hscreened hopen
  have hqueued {hint : ℚ → ℚ} {c : TriageContext} {w' : World}
      (h : exec (hintedRun rt config env hint { alert }) w = (.ok c, w')) :
      Queued c ↔ ¬ Archives config (discounted rt.arith (weightedScore rt config env w₁ alert)
        (hintDiscount rt.arith 6 (hint (hintScore rt config env w₁ alert)))) := by
    obtain ⟨ctx', w₁', hscreened', h⟩ := exec_bind_ok.mp h
    obtain ⟨rfl, rfl⟩ : ctx = ctx' ∧ w₁ = w₁' := by simpa using hscreened.symm.trans hscreened'
    rw [← halert]
    exact scoreAndRoute_queued hconfig hopen hroute h
  have hfree : discounted rt.arith (weightedScore rt config env w₁ alert)
      (hintDiscount rt.arith 6 0) =
        rt.arith.roundTo 2 (max 0 (weightedScore rt config env w₁ alert)) := by
    rw [discounted, hintDiscount_zero (by norm_num), sub_zero, weightedScore, weighted,
      rt.arith.round_sum]
  rw [← hintedRun_id] at hrun
  rw [hqueued hunhinted, hqueued hrun, hfree]
  rw [← archives_of_lowered loweredScore_le]
  simp only [id, hintScore, hconfig.hintCap, discounted, loweredScore]

/-- A host of low criticality with every flag that lowers the score. -/
def flaggedProfile : EntityProfile where
  entityType := .host
  entityKey := "web-1"
  assetCriticality := .low
  isKnownScanner := true
  isJumpHost := true
  isDecommissioned := true

def flaggedAlert (severity : ℤ) : AlertSnapshot where
  id := 0
  dataSourceName := "siem"
  row := {
    dataSourceId := 0
    sourceAlertId := "a"
    fingerprint := "fp"
    severity
    occurredAt := 0
    ingestedAt := 0
    hostName := some "web-1" }

def flaggedWorld (severity : ℤ) : World where
  db := { alerts := [(flaggedAlert severity).row], entityProfiles := [flaggedProfile] }

/-- With every hint an alert of score 33.5 falls to 27.5 and is archived. -/
theorem hints_archive :
    ¬ ∀ (rt : Runtime) (config : TriageConfig) (env : TriageEnv) (alert : AlertSnapshot)
      (w w₁ w₀ w' : World) (ctx c₀ c : TriageContext), LoadedConfig config →
      exec (screen rt config env { alert }) w = (.ok ctx, w₁) → ctx.shortCircuit = false →
      exec (hintedRun rt config env (fun _ => 0) { alert }) w = (.ok c₀, w₀) →
      exec (pipelineRun rt config env { alert }) w = (.ok c, w') → Queued c₀ → Queued c := by
  intro h
  obtain ⟨ctx, w₁, hscreened, hopen⟩ : ∃ ctx w₁, exec (screen (sampleRuntime .free []) {}
      { dedupNow := 0 } { alert := flaggedAlert 2 }) (flaggedWorld 2) = (.ok ctx, w₁) ∧
      ctx.shortCircuit = false := exec_of_returned_map (by decide +kernel)
  obtain ⟨c₀, w₀, hunhinted, hqueued⟩ : ∃ c₀ w₀, exec (hintedRun (sampleRuntime .free []) {}
      { dedupNow := 0 } (fun _ => 0) { alert := flaggedAlert 2 }) (flaggedWorld 2) =
      (.ok c₀, w₀) ∧ c₀.routeDecision = some .queueUncertain :=
    exec_of_returned_map (by decide +kernel)
  obtain ⟨c, w', hrun, harchived⟩ : ∃ c w', exec (pipelineRun (sampleRuntime .free []) {}
      { dedupNow := 0 } { alert := flaggedAlert 2 }) (flaggedWorld 2) = (.ok c, w') ∧
      c.routeDecision = some .archiveLowRisk := exec_of_returned_map (by decide +kernel)
  obtain ⟨route, hroute, hqueue⟩ :=
    h _ _ _ _ _ _ _ _ _ _ _ ⟨rfl, rfl, rfl⟩ hscreened hopen hunhinted
    hrun ⟨_, hqueued, rfl⟩
  obtain rfl : route = .archiveLowRisk := Option.some.inj (hroute.symm.trans harchived)
  exact absurd hqueue (by decide)

/-- A severe alert of the flagged host stays in its queue. -/
theorem hints_keep_queue_severe : ∃ c w', exec (pipelineRun (sampleRuntime .free []) {}
      { dedupNow := 0 } { alert := flaggedAlert 5 }) (flaggedWorld 5) = (.ok c, w') ∧ Queued c := by
  obtain ⟨ctx, w₁, hscreened, hopen⟩ : ∃ ctx w₁, exec (screen (sampleRuntime .free []) {}
      { dedupNow := 0 } { alert := flaggedAlert 5 }) (flaggedWorld 5) = (.ok ctx, w₁) ∧
      ctx.shortCircuit = false := exec_of_returned_map (by decide +kernel)
  obtain ⟨c₀, w₀, hunhinted, hqueued⟩ : ∃ c₀ w₀, exec (hintedRun (sampleRuntime .free []) {}
      { dedupNow := 0 } (fun _ => 0) { alert := flaggedAlert 5 }) (flaggedWorld 5) =
      (.ok c₀, w₀) ∧ c₀.routeDecision = some .queueUncertain :=
    exec_of_returned_map (by decide +kernel)
  obtain ⟨c, w', hrun, -⟩ : ∃ c w', exec (pipelineRun (sampleRuntime .free []) {}
      { dedupNow := 0 } { alert := flaggedAlert 5 }) (flaggedWorld 5) = (.ok c, w') ∧
      c.dedupHit = false := exec_of_returned_map (by decide +kernel)
  refine ⟨c, w', hrun, (hints_keep_queue_iff ⟨rfl, rfl, rfl⟩ hscreened hopen hunhinted hrun).mpr
    ?_ ⟨_, hqueued, rfl⟩⟩
  rw [← show _ = w₁ from congrArg Prod.snd hscreened]
  decide +kernel

end Minsight

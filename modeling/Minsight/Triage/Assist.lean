import Minsight.Triage.Hints

/-! # LLM assist

An alert whose score is in the route filter is scored by the model as well, unless a score is cached
or the run has used up its calls. The handler asks the model at most once for an alert.
-/

namespace Minsight

open Tx Session

section

variable (rt : Runtime) (config : TriageConfig) (env : TriageEnv)

/-- The cached score of a key, when there is one and Redis can be read. -/
def usableScore (key : String) (w : World) : Option (ℚ × Time) :=
  (w.out.cachedScore key).filter fun c =>
    env.redisUp && decide (rt.clock.reading w.out.clock env.llmNow < c.2)

def skipsAssist (ctx : TriageContext) (w : World) : Bool :=
  ctx.shortCircuit || !config.llmAssistEnabled || routeFiltered rt config ctx.effectiveScore ||
    decide (config.llmAssistMaxPerRun ≤ w.out.llmAssistCalls)

/-- `LlmAssistHandler.handle` requests a completion for the alert of the context. -/
def requestsCompletion (ctx : TriageContext) (w : World) : Bool :=
  !skipsAssist rt config ctx w && (usableScore rt env (llmCacheKey rt ctx.alert) w).isNone

def scoredRun (ctx : TriageContext) : Session TriageContext := do
  let ctx ← beforeScoring rt config env ctx
  ruleScoreHandle rt config env ctx

/-- The pipeline requests a completion for an alert it starts with in this world. -/
def pipelineRequests (alert : AlertSnapshot) (w : World) : Bool :=
  match exec (scoredRun rt config env { alert }) w with
  | (.ok ctx, w') => requestsCompletion rt config env ctx w'
  | (.error _, _) => false

theorem pipelineRun_scored (ctx : TriageContext) : pipelineRun rt config env ctx =
    scoredRun rt config env ctx >>= fun ctx => llmAssistHandle rt config env ctx >>= fun ctx =>
      persistHandle rt env (routeHandle config env ctx) := by
  simp only [pipelineRun, scoredRun, beforeScoring, screen, bind_assoc]

end

variable {rt : Runtime} {config : TriageConfig} {env : TriageEnv} {ctx c : TriageContext}
  {w w' : World} {alert : AlertSnapshot}

theorem scoredRun_unrouted (h : exec (scoredRun rt config env { alert }) w = (.ok c, w')) :
    Unrouted alert c := by
  obtain ⟨ctx, w₁, hbefore, hrule⟩ := exec_bind_ok.mp h
  exact ruleScoreHandle_returns (beforeScoring_unrouted hbefore) _ _ _ hrule

def askedWorldOf (rt : Runtime) (env : TriageEnv) (w : World) : World :=
  { w with out := { w.out with clock := rt.clock.reading w.out.clock env.llmNow } }

theorem exec_llmScore_cached {key : String} {c : ℚ × Time} (h : usableScore rt env key w = some c) :
    exec (llmScore rt env key) w = (.ok (some c.1), askedWorldOf rt env w) := by
  rw [usableScore] at h
  simp only [llmScore, exec_utcNow_bind, exec_redis_bind, h, exec_pure]
  rfl

/-- Without a usable score the model is asked, and a failure to answer leaves no score. -/
theorem exec_llmScore_asked {key : String} (h : usableScore rt env key w = none) :
    exec (llmScore rt env key) w = match env.llmScore with
      | .error _ => (.ok none, askedWorldOf rt env w)
      | .ok score => (.ok (some score), { askedWorldOf rt env w with
          out := { (askedWorldOf rt env w).out with
            llmAssistCalls := w.out.llmAssistCalls + 1
            cachedScore := if env.redisUp
              then Function.update w.out.cachedScore key
                (some (score, rt.clock.reading w.out.clock env.llmNow + hours 24))
              else w.out.cachedScore } }) := by
  rw [usableScore] at h
  simp only [llmScore, exec_utcNow_bind, exec_redis_bind, h]
  cases env.llmScore with
  | error e => rfl
  | ok score => rfl

theorem exec_llmAssistHandle_skips (h : skipsAssist rt config ctx w = true) :
    exec (llmAssistHandle rt config env ctx) w = (.ok ctx, w) := by
  simp only [skipsAssist, Bool.or_eq_true, decide_eq_true_eq] at h
  simp only [llmAssistHandle, exec_redis_bind]
  split_ifs with hoff hfiltered hspent
  · rfl
  · rfl
  · rfl
  · simp_all

theorem exec_llmAssistHandle (h : skipsAssist rt config ctx w = false) :
    exec (llmAssistHandle rt config env ctx) w =
      exec (llmScore rt env (llmCacheKey rt ctx.alert) >>= fun score => pure (withLlmScore rt config
        { ctx with llmCacheKey := some (llmCacheKey rt ctx.alert) } score)) w := by
  simp only [skipsAssist, Bool.or_eq_false_iff, Bool.not_eq_false', decide_eq_false_iff_not] at h
  obtain ⟨⟨⟨hshort, henabled⟩, hfiltered⟩, hspent⟩ := h
  simp only [llmAssistHandle, exec_redis_bind, hshort, henabled, hfiltered, hspent,
    Bool.not_true, Bool.or_false, Bool.false_eq_true, if_false]

theorem llmAssistHandle_unasked (h : requestsCompletion rt config env ctx w = false)
    (answer : Except Exn ℚ) :
    exec (llmAssistHandle rt config { env with llmScore := answer } ctx) w =
      exec (llmAssistHandle rt config env ctx) w := by
  cases hskips : skipsAssist rt config ctx w with
  | true => rw [exec_llmAssistHandle_skips hskips, exec_llmAssistHandle_skips hskips]
  | false =>
    cases hcached : usableScore rt env (llmCacheKey rt ctx.alert) w with
    | none => simp [requestsCompletion, hskips, hcached] at h
    | some c =>
      rw [exec_llmAssistHandle hskips, exec_llmAssistHandle hskips,
        exec_bind_of_ok (exec_llmScore_cached hcached),
        exec_bind_of_ok (exec_llmScore_cached (by exact hcached))]
      rfl

theorem llmAssistHandle_calls :
    (exec (llmAssistHandle rt config env ctx) w).2.out.llmAssistCalls = w.out.llmAssistCalls +
      if requestsCompletion rt config env ctx w && env.llmScore.isOk then 1 else 0 := by
  cases hskips : skipsAssist rt config ctx w with
  | true =>
    rw [exec_llmAssistHandle_skips hskips]
    simp [requestsCompletion, hskips]
  | false =>
    rw [exec_llmAssistHandle hskips]
    cases hcached : usableScore rt env (llmCacheKey rt ctx.alert) w with
    | some c =>
      rw [exec_bind_of_ok (exec_llmScore_cached hcached)]
      simp [requestsCompletion, hskips, hcached, askedWorldOf]
    | none =>
      have hasked : requestsCompletion rt config env ctx w = true := by
        simp [requestsCompletion, hskips, hcached]
      have hscore := exec_llmScore_asked hcached
      rw [hasked, Bool.true_and]
      cases hanswer : env.llmScore with
      | error e =>
        rw [hanswer] at hscore
        rw [exec_bind_of_ok hscore]
        rfl
      | ok score =>
        rw [hanswer] at hscore
        rw [exec_bind_of_ok hscore]
        rfl

/-- The configuration with the LLM assist turned on or off. -/
def TriageConfig.withAssist (config : TriageConfig) (enabled : Bool) : TriageConfig :=
  { config with llmAssistEnabled := enabled }

/-- A route of the filter, in lower case. -/
def inRouteFilter (rt : Runtime) (config : TriageConfig) (route : RouteDecision) : Prop :=
  route.unsampled.value ∈ config.llmAssistRouteFilter.map rt.lower

instance (route : RouteDecision) : Decidable (inRouteFilter rt config route) :=
  inferInstanceAs (Decidable (_ ∈ _))

theorem scoredRun_withAssist (enabled : Bool) :
    scoredRun rt (config.withAssist enabled) env ctx = scoredRun rt config env ctx := rfl

/-- An alert without a route whose predicted route is filtered out is not for the model. -/
theorem skipsAssist_filtered (hne : config.llmAssistRouteFilter ≠ [])
    (hroute : (predictRouteDecision config ctx.effectiveScore).value ∉
      config.llmAssistRouteFilter.map rt.lower) : skipsAssist rt config ctx w = true := by
  have hfiltered : routeFiltered rt config ctx.effectiveScore = true := by
    simp only [routeFiltered, Bool.and_eq_true, Bool.not_eq_true', List.isEmpty_eq_false_iff,
      ne_eq, List.map_eq_nil_iff, List.contains_eq_mem, decide_eq_false_iff_not]
    exact ⟨hne, hroute⟩
  simp [skipsAssist, hfiltered]

/--
Where the route filter is not empty and lacks, in lower case, the route an alert gets without the
LLM assist, the pipeline with the assist does what the one without it does and requests nothing.
-/
theorem route_filter_confines (hne : config.llmAssistRouteFilter ≠ []) {route : RouteDecision}
    (hrun : exec (pipelineRun rt (config.withAssist false) env { alert }) w = (.ok c, w'))
    (hroute : c.routeDecision = some route) (hfilter : ¬ inRouteFilter rt config route) :
    exec (pipelineRun rt (config.withAssist true) env { alert }) w = (.ok c, w') ∧
      pipelineRequests rt (config.withAssist true) env alert w = false := by
  rw [pipelineRun_scored, scoredRun_withAssist] at hrun ⊢
  obtain ⟨ctx, w₁, hscored, hrun⟩ := exec_bind_ok.mp hrun
  have hunrouted := scoredRun_unrouted hscored
  have hoff : skipsAssist rt (config.withAssist false) ctx w₁ = true := by
    simp [skipsAssist, TriageConfig.withAssist]
  rw [exec_bind_of_ok (exec_llmAssistHandle_skips hoff)] at hrun
  have hskips : skipsAssist rt (config.withAssist true) ctx w₁ = true := by
    cases hshort : ctx.shortCircuit with
    | true => simp [skipsAssist, hshort]
    | false =>
      have hnone : ctx.routeDecision = none := by
        have hshort' := hunrouted.short
        rw [hshort] at hshort'
        simpa using hshort'.symm
      obtain ⟨rfl, -⟩ := persistHandle_ok hrun
      obtain ⟨route', hroute', hpredicted⟩ :=
        @routeHandle_predicted (config.withAssist false) env ctx hnone
      obtain rfl : route = route' := Option.some.inj (hroute.symm.trans hroute')
      rw [inRouteFilter, hpredicted] at hfilter
      exact skipsAssist_filtered hne hfilter
  constructor
  · rw [exec_bind_of_ok hscored, exec_bind_of_ok (exec_llmAssistHandle_skips hskips)]
    exact hrun
  · rw [pipelineRequests, scoredRun_withAssist, hscored]
    simp [requestsCompletion, hskips]

/-- The flagged host's alert of low severity is archived whether or not the model may be asked. -/
theorem route_filter_confines_archived :
    ∃ c w', exec (pipelineRun (sampleRuntime .free []) (TriageConfig.withAssist {} true)
        { dedupNow := 0, llmScore := .ok 100 } { alert := flaggedAlert 2 }) (flaggedWorld 2) =
          (.ok c, w') ∧
      pipelineRequests (sampleRuntime .free []) (TriageConfig.withAssist {} true)
        { dedupNow := 0, llmScore := .ok 100 } (flaggedAlert 2) (flaggedWorld 2) = false := by
  obtain ⟨c, w', hrun, hroute⟩ : ∃ c w', exec (pipelineRun (sampleRuntime .free [])
      (TriageConfig.withAssist {} false) { dedupNow := 0, llmScore := .ok 100 }
      { alert := flaggedAlert 2 }) (flaggedWorld 2) = (.ok c, w') ∧
      c.routeDecision = some .archiveLowRisk := exec_of_returned_map (by decide +kernel)
  exact ⟨c, w', route_filter_confines (by decide) hrun hroute (by decide +kernel)⟩

/-- A filter that is not written in lower case lets the alerts of its route through. -/
theorem mixed_case_filter_requests :
    ¬ ∀ (rt : Runtime) (config : TriageConfig) (env : TriageEnv) (alert : AlertSnapshot)
      (route : RouteDecision) (c : TriageContext) (w w' : World),
      config.llmAssistRouteFilter ≠ [] →
      exec (pipelineRun rt (config.withAssist false) env { alert }) w = (.ok c, w') →
      c.routeDecision = some route → route.unsampled.value ∉ config.llmAssistRouteFilter →
      ∃ c' w'', exec (pipelineRun rt (config.withAssist true) env { alert }) w = (.ok c', w'') ∧
        c'.routeDecision = some route ∧ c'.ruleScore = c.ruleScore ∧
        c'.effectiveScore = c.effectiveScore ∧
        pipelineRequests rt (config.withAssist true) env alert w = false := by
  intro h
  obtain ⟨c, w', hrun, hroute⟩ : ∃ c w', exec (pipelineRun (sampleRuntime .free [])
      (TriageConfig.withAssist { llmAssistRouteFilter := ["Queue_Uncertain"] } false)
      { dedupNow := 0, llmScore := .ok 100 } { alert := flaggedAlert 5 }) (flaggedWorld 5) =
        (.ok c, w') ∧ c.routeDecision = some .queueUncertain :=
    exec_of_returned_map (by decide +kernel)
  obtain ⟨-, -, -, -, -, -, hasked⟩ :=
    h _ { llmAssistRouteFilter := ["Queue_Uncertain"] } _ _ _ _ _ _ (by decide) hrun hroute
      (by decide)
  exact absurd hasked (by decide +kernel)

theorem allowsScoring_calls : AllowsScoring rt (KeepsOut (·.llmAssistCalls)) where
  clock := allowsClock_keepsOut fun _ _ => rfl
  frequency _ := respectsOut_setRedis fun _ => rfl

theorem scoredRun_calls :
    Respects (KeepsOut (·.llmAssistCalls)) (scoredRun rt config env ctx) := by
  have hgroups : AllowsGrouping rt (KeepsOut (·.llmAssistCalls)) :=
    ⟨fun _ _ => rfl, fun _ _ => respectsOut_modify _⟩
  exact (beforeScoring_respects hgroups).bind fun _ => ruleScoreHandle_respects allowsScoring_calls

/-- A score the model gives for an alert is counted, also when the alert fails later on. -/
theorem pipelineRun_calls :
    (exec (pipelineRun rt config env { alert }) w).2.out.llmAssistCalls = w.out.llmAssistCalls +
      if pipelineRequests rt config env alert w && env.llmScore.isOk then 1 else 0 := by
  have hcalls : (exec (scoredRun rt config env { alert }) w).2.out.llmAssistCalls =
      w.out.llmAssistCalls := scoredRun_calls w
  rw [pipelineRun_scored]
  rcases hscored : exec (scoredRun rt config env { alert }) w with ⟨e | ctx, w₁⟩ <;>
    rw [hscored] at hcalls
  · rw [exec_bind_of_error hscored, hcalls, pipelineRequests, hscored]
    rfl
  · have hassist := @llmAssistHandle_calls rt config env ctx w₁
    rw [exec_bind_of_ok hscored, pipelineRequests, hscored, ← hcalls, ← hassist]
    rcases hctx : exec (llmAssistHandle rt config env ctx) w₁ with ⟨e | ctx', w₂⟩
    · rw [exec_bind_of_error hctx]
    · rw [exec_bind_of_ok hctx]
      exact persistHandle_respectsOut allowsScoring_calls.clock w₂

theorem pipelineRequests_lt (h : pipelineRequests rt config env alert w = true) :
    (w.out.llmAssistCalls : ℤ) < config.llmAssistMaxPerRun := by
  have hcalls : (exec (scoredRun rt config env { alert }) w).2.out.llmAssistCalls =
      w.out.llmAssistCalls := scoredRun_calls w
  unfold pipelineRequests at h
  split at h
  · rename_i ctx w' hscored
    rw [hscored] at hcalls
    simp only [requestsCompletion, skipsAssist, Bool.and_eq_true, Bool.not_eq_true',
      Bool.or_eq_false_iff, decide_eq_false_iff_not, not_le] at h
    rw [← hcalls]
    exact h.1.2
  · cases h

section

variable (rt : Runtime) (config : TriageConfig) (env : TriageRunEnv) (limit : Option ℤ)
  (useLock : Bool)

def freshCalls (w : World) : World := { w with out := { w.out with llmAssistCalls := 0 } }

def triageBatch (w : World) : List AlertSnapshot :=
  if useLock && !env.lockAcquired then []
  else if limitOr limit config.batchSize < 0 ∨ env.fetchFault.isSome then []
  else fetchNewAlerts env.tie (limitOr limit config.batchSize).toNat w.db

/-- What a run does with each of its alerts. -/
def triageAttempts (w : World) : List (Loop.Attempt Exn World AlertSnapshot Unit) :=
  (triageLoop rt config env).attempts (triageBatch config env limit useLock w) (freshCalls w)

/-- The model is asked about the alert of an attempt. -/
def requested (a : Loop.Attempt Exn World AlertSnapshot Unit) : Bool :=
  pipelineRequests rt config (env.items a.item.id) a.item a.before

/-- The completions a run requests. -/
def completionsRequested (w : World) : ℕ :=
  (triageAttempts rt config env limit useLock w).countP (requested rt config env)

/-- The model answers with a score when it is asked about the alert of an attempt. -/
def answered (a : Loop.Attempt Exn World AlertSnapshot Unit) : Bool :=
  requested rt config env a && (env.items a.item.id).llmScore.isOk

end

section

variable {env : TriageRunEnv} {limit : Option ℤ} {useLock : Bool} {result : TriageRunResult}
  {alerts : List AlertSnapshot}

theorem exec_triageRun (h : triageBatch config env limit useLock w ≠ []) :
    exec (triageRun rt config env limit useLock) w =
      exec ((triageLoop rt config env).run (triageBatch config env limit useLock w) {})
        (freshCalls w) := by
  have hacquired : (useLock && !env.lockAcquired) = false := by
    rw [← Bool.not_eq_true]
    intro hlocked
    exact h (if_pos hlocked)
  have hfetch : ¬ (limitOr limit config.batchSize < 0 ∨ env.fetchFault.isSome = true) := by
    intro hfault
    simp [triageBatch, hacquired, hfault] at h
  obtain ⟨hlimit, hfault⟩ := not_or.mp hfetch
  have hnone : env.fetchFault = none := by simpa using hfault
  have hsql : exec (sqlLimit (limitOr limit config.batchSize)) (freshCalls w) =
      (.ok (limitOr limit config.batchSize).toNat, freshCalls w) :=
    exec_sqlLimit_ok.mpr ⟨not_lt.mp hlimit, rfl, rfl⟩
  rw [triageRun, hacquired]
  simp only [Bool.false_eq_true, if_false, exec_setRedis_bind]
  change exec (sqlLimit _ >>= _) (freshCalls w) = _
  rw [exec_bind_of_ok hsql]
  simp only [hnone, fallible]
  rw [triageBatch, hacquired, if_neg Bool.false_ne_true, if_neg hfetch]
  rfl

theorem triageLoop_calls (i : AlertSnapshot) (w : World) :
    (exec ((triageLoop rt config env).body i) w).2.out.llmAssistCalls = w.out.llmAssistCalls +
      if pipelineRequests rt config (env.items i.id) i w && (env.items i.id).llmScore.isOk
        then 1 else 0 := by
  rw [← pipelineRun_calls, exec_triageLoop_body]

theorem attempts_calls : ∀ a ∈ (triageLoop rt config env).attempts alerts w,
    a.after.out.llmAssistCalls = a.before.out.llmAssistCalls +
      if answered rt config env a then 1 else 0 := by
  apply Loop.attempts_forall
  · intro i w t w' hbody
    have hcalls := @triageLoop_calls rt config env i w
    rwa [hbody] at hcalls
  · intro i w e w' hbody
    have hcalls := @triageLoop_calls rt config env i w
    rwa [hbody] at hcalls

theorem answered_within_cap (hcap : (w.out.llmAssistCalls : ℤ) ≤ config.llmAssistMaxPerRun) :
    ((w.out.llmAssistCalls + ((triageLoop rt config env).attempts alerts w).countP
      (answered rt config env) : ℕ) : ℤ) ≤ config.llmAssistMaxPerRun := by
  have hcount : (exec ((triageLoop rt config env).run alerts {}) w).2.out.llmAssistCalls = _ :=
    Loop.count_of_attempts (f := fun w : World => w.out.llmAssistCalls) attempts_calls
  rw [← hcount]
  have body {i : AlertSnapshot} {w w' : World} {r : Except Exn Unit}
      (hcap : (w.out.llmAssistCalls : ℤ) ≤ config.llmAssistMaxPerRun)
      (hbody : exec ((triageLoop rt config env).body i) w = (r, w')) :
      (w'.out.llmAssistCalls : ℤ) ≤ config.llmAssistMaxPerRun := by
    have hcalls := @triageLoop_calls rt config env i w
    rw [hbody] at hcalls
    rw [show w'.out.llmAssistCalls = _ from hcalls]
    split
    · rename_i hanswered
      have hlt := pipelineRequests_lt (Bool.and_eq_true_iff.mp hanswered).1
      omega
    · exact hcap
  exact Loop.run_invariant (fun w : World => (w.out.llmAssistCalls : ℤ) ≤ config.llmAssistMaxPerRun)
    (fun _ _ _ _ => body) (fun _ _ _ _ => body) hcap

def oneCall : TriageConfig := { llmAssistEnabled := true, llmAssistMaxPerRun := 1 }

def uncertainAlert (fingerprint : String) : Alert where
  dataSourceId := 0
  sourceAlertId := fingerprint
  fingerprint := fingerprint
  occurredAt := 0
  ingestedAt := 0

def twoUncertain : World where
  db := {
    dataSources := [{ name := "siem" }]
    alerts := [uncertainAlert "f-1", uncertainAlert "f-2"] }

/-- Every request is answered alike. -/
def answering (answer : Except Exn ℚ) : TriageRunEnv where
  items _ := { dedupNow := 0, llmScore := answer }

end

end Minsight

import Minsight.Foundation.Tally
import Minsight.Triage.Hints

/-! # Frequency counts

The frequency of an alert is counted in Redis, and in the database when Redis is unavailable. The
counter of a key counts the alerts that were scored under it; the database counts every alert that
passes the filter of the fallback.
-/

namespace Minsight

open Tx Session

section

variable {rt : Runtime} {config : TriageConfig} {env : TriageEnv} {alert : AlertSnapshot}
  {w w' : World}

structure FrequencyRow where
  occurredAt : Time
  srcIp : Option String
  hostName : Option String
  ruleId : Option String

def Alert.frequencyRow (a : Alert) : FrequencyRow where
  occurredAt := a.occurredAt
  srcIp := a.srcIp
  hostName := a.hostName
  ruleId := a.ruleId

@[simp] theorem Alert.frequencyRow_occurredAt (a : Alert) :
    a.frequencyRow.occurredAt = a.occurredAt := rfl

def fallbackMatches (alert : Alert) (a : FrequencyRow) : Bool :=
  (match truthyText alert.srcIp, truthyText alert.hostName with
    | some ip, _ => a.srcIp == some ip
    | none, some host => a.hostName == some host
    | none, none => true) &&
  (match truthyText alert.ruleId with | some r => a.ruleId == some r | none => true)

theorem frequencyFromDb_eq (db : Db) (since : Time) (alert : Alert) :
    frequencyFromDb db since alert = (db.alerts.map Alert.frequencyRow).countP fun a =>
      decide (since ≤ a.occurredAt) && fallbackMatches alert a := by
  rw [frequencyFromDb, List.countP_map]
  apply List.countP_congr
  intro a _
  rw [Bool.and_assoc]
  exact Iff.rfl

theorem truthyText_some {text : Option String} {s : String} (h : truthyText text = some s) :
    text = some s := (Option.filter_eq_some_iff.mp h).1

theorem fallbackMatches_self (alert : Alert) : fallbackMatches alert alert.frequencyRow = true := by
  rw [fallbackMatches, Bool.and_eq_true]
  constructor
  · cases hip : truthyText alert.srcIp with
    | some ip => simp [Alert.frequencyRow, truthyText_some hip]
    | none =>
      cases hhost : truthyText alert.hostName with
      | some host => simp [Alert.frequencyRow, truthyText_some hhost]
      | none => rfl
  · cases hrule : truthyText alert.ruleId with
    | some rule => simp [Alert.frequencyRow, truthyText_some hrule]
    | none => rfl

/-- The clock reading with which the frequency of an alert is counted. -/
def frequencyTime (rt : Runtime) (env : TriageEnv) (w : World) : Time :=
  rt.clock.reading w.out.clock env.frequencyNow

/-- The counter that an alert increments when it is scored. -/
def counted (now : Time) (alert : AlertSnapshot) (o : Outside) : ℕ × Time :=
  Tally.bump (hours 1) now (o.frequency (frequencyKey alert))

theorem exec_getFrequencyCount_redis (hup : env.redisUp = true) :
    exec (getFrequencyCount rt env alert) w =
      (.ok (counted (frequencyTime rt env w) alert w.out).1, { w with out := { w.out with
        clock := frequencyTime rt env w
        frequency := Function.update w.out.frequency (frequencyKey alert)
          (some (counted (frequencyTime rt env w) alert w.out)) } }) := by
  simp only [getFrequencyCount, exec_utcNow_bind, hup, if_true, exec_redis_bind,
    exec_setRedis_bind, exec_pure]
  rw [counted]
  cases w.out.frequency (frequencyKey alert) with
  | none => rfl
  | some c => rfl

theorem exec_getFrequencyCount_db (hdown : env.redisUp = false)
    (hfault : env.faults .frequency = none) :
    exec (getFrequencyCount rt env alert) w =
      (.ok (frequencyFromDb w.db (frequencyTime rt env w - hours 1) alert.row),
        { w with out := { w.out with clock := frequencyTime rt env w } }) := by
  simp only [getFrequencyCount, exec_utcNow_bind, hdown, Bool.false_eq_true, if_false, hfault,
    fallible, exec_bind_pure, exec_query]
  rfl

end

section

variable (rt : Runtime) (config : TriageConfig) (env : TriageEnv) (alert : AlertSnapshot)

/-- The world in which the rule score of an alert is started, when the alert comes to it. -/
def scoringWorld (w : World) : Option World :=
  match exec (beforeScoring rt config env { alert }) w with
  | (.ok ctx, w') => if ctx.shortCircuit then none else some w'
  | (.error _, _) => none

def triageOne (w : World) : World :=
  (exec ((triageLoop rt config { items := fun _ => env }).run [alert] {}) w).2

theorem pipelineRun_beforeScoring (ctx : TriageContext) : pipelineRun rt config env ctx =
    beforeScoring rt config env ctx >>= fun ctx => ruleScoreHandle rt config env ctx >>= fun ctx =>
      llmAssistHandle rt config env ctx >>= fun ctx =>
        persistHandle rt env (routeHandle config env ctx) := by
  simp only [pipelineRun, beforeScoring, screen, bind_assoc]

end

section

variable {rt : Runtime} {config : TriageConfig} {env : TriageEnv} {alert : AlertSnapshot}
  {ctx : TriageContext} {w w₁ : World}

/-- Until the rule score is started the alerts stay as they are. -/
theorem beforeScoring_alerts : Respects (Keeps Db.alerts) (beforeScoring rt config env ctx) :=
  beforeScoring_respects (allowsGrouping_keeps fun _ _ => rfl)

/-- Until the rule score is started no counter is incremented. -/
theorem beforeScoring_frequency :
    Respects (KeepsOut (·.frequency)) (beforeScoring rt config env ctx) :=
  beforeScoring_respects ⟨allowsClock_keepsOut fun _ _ => rfl, fun _ _ => respectsOut_modify _⟩

/-- The rule score is started with the alerts and the counters the triage was started with. -/
theorem scoringWorld_keeps (h : scoringWorld rt config env alert w = some w₁) :
    w₁.db.alerts = w.db.alerts ∧ w₁.out.frequency = w.out.frequency := by
  have halerts := @beforeScoring_alerts rt config env { alert } w
  have hfrequency := @beforeScoring_frequency rt config env { alert } w
  unfold scoringWorld at h
  split at h
  · rename_i ctx w' hbefore
    rw [hbefore] at halerts hfrequency
    split_ifs at h
    obtain rfl := Option.some.inj h
    exact ⟨halerts, hfrequency⟩
  · cases h

theorem afterScoring_frequency : Respects (KeepsOut (·.frequency))
    (llmAssistHandle rt config env ctx >>= fun ctx =>
      persistHandle rt env (routeHandle config env ctx)) := by
  have hclock : AllowsClock rt (KeepsOut (·.frequency)) := allowsClock_keepsOut fun _ _ => rfl
  apply Respects.bind
  · apply llmAssistHandle_respects
    refine ⟨hclock, fun f hf => respectsOut_setRedis fun o => ?_⟩
    obtain ⟨calls, scores, hf⟩ := hf o
    rw [hf]
  · intro ctx
    exact persistHandle_respectsOut hclock

/-- Scoring increments the counter of the alert's key, also when the score then fails. -/
theorem ruleScoreHandle_frequency (hup : env.redisUp = true)
    (hopen : ctx.shortCircuit = false) :
    (exec (ruleScoreHandle rt config env ctx) w).2.out.frequency =
      Function.update w.out.frequency (frequencyKey ctx.alert)
        (some (counted (frequencyTime rt env w) ctx.alert w.out)) := by
  rw [ruleScoreHandle, if_neg (by simp [hopen]),
    exec_bind_of_ok (exec_getFrequencyCount_redis hup)]
  cases hfault : env.faults .assetScore <;> simp [fallible]

theorem triageOne_out : (triageOne rt config env alert w).out =
    (exec (pipelineRun rt config env { alert }) w).2.out := by
  rw [triageOne]
  have hbody := @exec_triageLoop_body rt config alert { items := fun _ => env } w
  rw [← hbody]
  rcases hrun : exec ((triageLoop rt config { items := fun _ => env }).body alert) w
    with ⟨e | u, w'⟩
  · cases hexpired : (triageLoop rt config { items := fun _ => env }).expired with
    | none =>
      rw [Loop.exec_run_error hrun hexpired]
      rfl
    | some e' =>
      rw [Loop.exec_run_expired hrun hexpired]
      rfl
  · rw [Loop.exec_run_ok hrun]
    rfl

theorem exec_ruleScore_then_frequency :
    (exec (ruleScoreHandle rt config env ctx >>= fun ctx => llmAssistHandle rt config env ctx >>=
      fun ctx => persistHandle rt env (routeHandle config env ctx)) w).2.out.frequency =
      (exec (ruleScoreHandle rt config env ctx) w).2.out.frequency := by
  rcases hrule : exec (ruleScoreHandle rt config env ctx) w with ⟨e | ctx', w'⟩
  · rw [exec_bind_of_error hrule]
  · rw [exec_bind_of_ok hrule]
    exact afterScoring_frequency w'

theorem triageOne_frequency (hup : env.redisUp = true) :
    (triageOne rt config env alert w).out.frequency =
      match scoringWorld rt config env alert w with
      | some w₁ => Function.update w.out.frequency (frequencyKey alert)
          (some (counted (frequencyTime rt env w₁) alert w.out))
      | none => w.out.frequency := by
  rw [triageOne_out, pipelineRun_beforeScoring]
  have hbefore := @beforeScoring_frequency rt config env { alert } w
  rcases hrun : exec (beforeScoring rt config env { alert }) w with ⟨e | ctx, w₁⟩ <;>
    rw [hrun] at hbefore
  · have hworld : scoringWorld rt config env alert w = none := by rw [scoringWorld, hrun]
    rw [exec_bind_of_error hrun, hworld]
    exact hbefore
  · replace hbefore : w₁.out.frequency = w.out.frequency := hbefore
    rw [exec_bind_of_ok hrun, exec_ruleScore_then_frequency]
    cases hshort : ctx.shortCircuit with
    | true =>
      have hworld : scoringWorld rt config env alert w = none := by
        rw [scoringWorld, hrun]
        exact if_pos hshort
      rw [ruleScoreHandle, if_pos hshort, hworld]
      exact hbefore
    | false =>
      have halert : ctx.alert = alert := (beforeScoring_unrouted hrun).alert
      have hworld : scoringWorld rt config env alert w = some w₁ := by
        rw [scoringWorld, hrun]
        exact if_neg (by simp [hshort])
      rw [ruleScoreHandle_frequency hup hshort, halert, counted, hbefore, hworld]
      rfl

theorem triageOne_rows : (triageOne rt config env alert w).db.alerts.map Alert.frequencyRow =
    w.db.alerts.map Alert.frequencyRow := by
  have hloop : Respects (Keeps fun db => db.alerts.map Alert.frequencyRow)
      ((triageLoop rt config { items := fun _ => env }).run [alert] {}) := by
    apply Loop.respects_run
    · intro alert w u w' hbody
      obtain ⟨ctx, w₁, hrun, hcommit⟩ := exec_bind_ok.mp hbody
      obtain ⟨-, rfl⟩ := exec_fallible_ok.mp hcommit
      obtain ⟨ctx', route, now, -, -, -, -, hdb⟩ := pipelineRun_triaged hrun
      have halerts : w₁.db.alerts = w.db.alerts.modify ctx'.alert.id (routedAlert ctx' route) := by
        simpa [recordTriage] using congrArg Db.alerts hdb
      change w₁.db.alerts.map Alert.frequencyRow = _
      rw [halerts]
      exact Rows.map_update_eq fun _ => rfl
    · intro alert w e w' _
      exact rfl
  exact hloop w

end

/-- An alert that occurs, and what the world answers while it is triaged. -/
structure Occurrence where
  row : Alert
  env : TriageEnv

/-- An alert that was triaged. -/
structure SeenAlert where
  alert : AlertSnapshot
  scored : Bool

namespace Occurrence

variable (rt : Runtime) (config : TriageConfig) (start : Time) (x : Occurrence)
  (source : DataSource) (w : World)

def arrive : World := { w with db := { w.db with alerts := w.db.alerts ++ [x.row] } }

def snapshot : AlertSnapshot where
  id := w.db.alerts.length
  dataSourceName := source.name
  row := x.row

/-- The world in which the rule score of the alert is started, when the alert comes to it. -/
def scoring : Option World :=
  scoringWorld rt config x.env (x.snapshot source w) (x.arrive w)

/-- The alert is triaged at the moment it occurs, with Redis available, in the hour from `start`. -/
structure Punctual : Prop where
  redisUp : x.env.redisUp = true
  moment : ∀ w₁ ∈ x.scoring rt config source w, frequencyTime rt x.env w₁ = x.row.occurredAt
  since : start ≤ x.row.occurredAt
  within : x.row.occurredAt < start + hours 1

end Occurrence

section

variable (rt : Runtime) (config : TriageConfig) (start : Time)

/-- No alert and no counter of the time before can be counted in the hour from `start`. -/
structure QuietBefore (w : World) : Prop where
  alerts : ∀ a ∈ w.db.alerts, a.occurredAt < start - hours 1
  counters : ∀ key, ∀ c ∈ w.out.frequency key, c.2 ≤ start

/-- The world after alerts have occurred and been triaged, one after the other. -/
inductive TriagedInTurn : List SeenAlert → World → Prop
  | start {w : World} (h : QuietBefore start w) : TriagedInTurn [] w
  | arrive {seen : List SeenAlert} {w : World} (h : TriagedInTurn seen w) (x : Occurrence)
      (source : DataSource) (hsource : w.db.dataSources[x.row.dataSourceId]? = some source)
      (hpunctual : x.Punctual rt config start source w) :
      TriagedInTurn
        (seen ++ [{ alert := x.snapshot source w
                    scored := (x.scoring rt config source w).isSome }])
        (triageOne rt config x.env (x.snapshot source w) (x.arrive w))

end

def scoredKeys (seen : List SeenAlert) : List String :=
  (seen.filter (·.scored)).map fun s => frequencyKey s.alert

/-- What the tables and the counters hold of the alerts that were triaged. -/
structure Tallied (start : Time) (seen : List SeenAlert) (w : World) : Prop where
  rows : ∃ old : List FrequencyRow, (∀ a ∈ old, a.occurredAt < start - hours 1) ∧
    w.db.alerts.map Alert.frequencyRow = old ++ seen.map (·.alert.row.frequencyRow)
  since : ∀ s ∈ seen, start ≤ s.alert.row.occurredAt
  counters : Tally.Counts start (hours 1) (scoredKeys seen) w.out.frequency

section

variable {rt : Runtime} {config : TriageConfig} {start : Time} {seen : List SeenAlert}
  {w w₁ : World} {x : Occurrence} {source : DataSource}

theorem QuietBefore.tallied (h : QuietBefore start w) : Tallied start [] w where
  rows := by
    refine ⟨w.db.alerts.map Alert.frequencyRow, ?_, (List.append_nil _).symm⟩
    intro a ha
    obtain ⟨row, hrow, rfl⟩ := List.mem_map.mp ha
    exact h.alerts row hrow
  since := by
    intro s hs
    cases hs
  counters := Tally.counts_nil h.counters

theorem Tallied.triageOne (h : Tallied start seen w)
    (hpunctual : x.Punctual rt config start source w) :
    Tallied start
      (seen ++ [{ alert := x.snapshot source w
                  scored := (x.scoring rt config source w).isSome }])
      (triageOne rt config x.env (x.snapshot source w) (x.arrive w)) where
  rows := by
    obtain ⟨old, hold, hrows⟩ := h.rows
    refine ⟨old, hold, ?_⟩
    rw [triageOne_rows, Occurrence.arrive, List.map_append, hrows, List.map_append,
      List.append_assoc]
    rfl
  since := by
    intro s hs
    rcases List.mem_append.mp hs with hs | hs
    · exact h.since s hs
    · obtain rfl := List.mem_singleton.mp hs
      exact hpunctual.since
  counters := by
    rw [triageOne_frequency hpunctual.redisUp]
    cases hscoring : x.scoring rt config source w with
    | none =>
      rw [show scoringWorld rt config x.env (x.snapshot source w) (x.arrive w) = none from hscoring]
      have hkeys : scoredKeys (seen ++ [{ alert := x.snapshot source w, scored := false }]) =
          scoredKeys seen := by
        simp [scoredKeys, List.filter_append]
      rw [Option.isSome_none, hkeys]
      exact h.counters
    | some w₁ =>
      rw [show scoringWorld rt config x.env (x.snapshot source w) (x.arrive w) = some w₁
        from hscoring]
      have hkeys : scoredKeys (seen ++ [{ alert := x.snapshot source w, scored := true }]) =
          scoredKeys seen ++ [frequencyKey (x.snapshot source w)] := by
        simp [scoredKeys, List.filter_append]
      dsimp only
      rw [Option.isSome_some, hkeys, counted, hpunctual.moment w₁ hscoring]
      exact h.counters.bump hpunctual.since hpunctual.within

theorem TriagedInTurn.tallied (h : TriagedInTurn rt config start seen w) :
    Tallied start seen w := by
  induction h with
  | start h => exact h.tallied
  | arrive _ x source hsource hpunctual ih => exact ih.triageOne hpunctual

/-- The environment with Redis unavailable and a database that answers. -/
def TriageEnv.withoutRedis (env : TriageEnv) : TriageEnv :=
  { env with redisUp := false, faults := fun _ => none }

/-- Redis counts the alerts that were scored under the key of the alert, and the alert. -/
theorem Tallied.redis (h : Tallied start seen w)
    (hpunctual : x.Punctual rt config start source w)
    (hscoring : x.scoring rt config source w = some w₁) :
    returned (getFrequencyCount rt x.env (x.snapshot source w)) w₁ =
      some ((scoredKeys seen).count (frequencyKey (x.snapshot source w)) + 1) := by
  have hfrequency : w₁.out.frequency = w.out.frequency := (scoringWorld_keeps hscoring).2
  rw [returned, exec_getFrequencyCount_redis hpunctual.redisUp, counted, hfrequency,
    hpunctual.moment w₁ hscoring]
  exact congrArg some (h.counters.bump_fst hpunctual.since hpunctual.within)

/-- Of the stored alerts, those that were triaged pass the filter of the last hour. -/
theorem Tallied.countP_rows (h : Tallied start seen w)
    (hpunctual : x.Punctual rt config start source w) :
    ((w.db.alerts ++ [x.row]).map Alert.frequencyRow).countP (fun a =>
      decide (x.row.occurredAt - hours 1 ≤ a.occurredAt) && fallbackMatches x.row a) =
      seen.countP (fun s => fallbackMatches x.row s.alert.row.frequencyRow) + 1 := by
  obtain ⟨old, hold, hrows⟩ := h.rows
  have hsince {t : Time} (ht : start ≤ t) : x.row.occurredAt - hours 1 ≤ t := by
    have := hpunctual.within
    linarith
  have hpast : old.countP (fun a => decide (x.row.occurredAt - hours 1 ≤ a.occurredAt) &&
      fallbackMatches x.row a) = 0 := by
    apply List.countP_eq_zero.mpr
    intro a ha hcounted
    have hlate := of_decide_eq_true (Bool.and_eq_true_iff.mp hcounted).1
    have := hold a ha
    have := hpunctual.since
    linarith
  have hseen : (seen.map (·.alert.row.frequencyRow)).countP (fun a =>
      decide (x.row.occurredAt - hours 1 ≤ a.occurredAt) && fallbackMatches x.row a) =
        seen.countP fun s => fallbackMatches x.row s.alert.row.frequencyRow := by
    rw [List.countP_map]
    apply List.countP_congr
    intro s hs
    rw [Function.comp_apply, Alert.frequencyRow_occurredAt,
      decide_eq_true (hsince (h.since s hs)), Bool.true_and]
  rw [List.map_append, List.countP_append, hrows, List.countP_append, hpast, hseen,
    List.map_singleton, List.countP_singleton, fallbackMatches_self, zero_add,
    Alert.frequencyRow_occurredAt, decide_eq_true (hsince hpunctual.since)]
  rfl

/-- The database counts the alerts that pass the filter of the fallback, and the alert. -/
theorem Tallied.fallback (h : Tallied start seen w)
    (hpunctual : x.Punctual rt config start source w)
    (hscoring : x.scoring rt config source w = some w₁) :
    returned (getFrequencyCount rt x.env.withoutRedis (x.snapshot source w)) w₁ =
      some (seen.countP (fun s => fallbackMatches x.row s.alert.row.frequencyRow) + 1) := by
  have halerts : w₁.db.alerts = w.db.alerts ++ [x.row] := (scoringWorld_keeps hscoring).1
  rw [returned, exec_getFrequencyCount_db rfl rfl, frequencyFromDb_eq, halerts,
    show frequencyTime rt x.env.withoutRedis w₁ = x.row.occurredAt
      from hpunctual.moment w₁ hscoring]
  exact congrArg some (h.countP_rows hpunctual)

theorem Tallied.agree_iff (h : Tallied start seen w)
    (hpunctual : x.Punctual rt config start source w)
    (hscoring : x.scoring rt config source w = some w₁) :
    returned (getFrequencyCount rt x.env.withoutRedis (x.snapshot source w)) w₁ =
        returned (getFrequencyCount rt x.env (x.snapshot source w)) w₁ ↔
      seen.countP (fun s => fallbackMatches x.row s.alert.row.frequencyRow) =
        seen.countP fun s =>
          s.scored && frequencyKey s.alert == frequencyKey (x.snapshot source w) := by
  have hkeys : (scoredKeys seen).count (frequencyKey (x.snapshot source w)) = seen.countP fun s =>
      s.scored && frequencyKey s.alert == frequencyKey (x.snapshot source w) := by
    rw [scoredKeys, List.count, List.countP_map, List.countP_filter]
    apply List.countP_congr
    intro s _
    rw [Bool.and_comm]
    rfl
  rw [h.redis hpunctual hscoring, h.fallback hpunctual hscoring, hkeys]
  simp

/-- An earlier alert is counted by both paths or by neither. -/
def CountedAlike (alert : AlertSnapshot) (s : SeenAlert) : Prop :=
  fallbackMatches alert.row s.alert.row.frequencyRow =
    (s.scored && frequencyKey s.alert == frequencyKey alert)

/--
When every alert triaged before is counted by both paths or by neither, an alert that comes to its
rule score gets the same count from the database as from Redis.
-/
theorem fallback_agrees (h : TriagedInTurn rt config start seen w)
    (hpunctual : x.Punctual rt config start source w)
    (hscoring : x.scoring rt config source w = some w₁)
    (halike : ∀ s ∈ seen, CountedAlike (x.snapshot source w) s) :
    ∃ n, returned (getFrequencyCount rt x.env (x.snapshot source w)) w₁ = some n ∧
      returned (getFrequencyCount rt x.env.withoutRedis (x.snapshot source w)) w₁ = some n := by
  have htallied := h.tallied
  have hredis := htallied.redis hpunctual hscoring
  refine ⟨_, hredis, ?_⟩
  rw [← hredis, htallied.agree_iff hpunctual hscoring]
  apply List.countP_congr
  intro s hs
  rw [← halike s hs]
  exact Iff.rfl

end

def loginFrom (dataSourceId : ℕ) (fingerprint : String) (occurredAt : Time) : Occurrence where
  row := {
    dataSourceId
    sourceAlertId := fingerprint
    fingerprint
    ruleId := some "5710"
    srcIp := some "10.0.0.5"
    occurredAt
    ingestedAt := occurredAt }
  env := { dedupNow := occurredAt }

def twoSources : World where
  db := { dataSources := [{ name := "siem" }, { name := "edr" }] }

def firstLogin : Occurrence := loginFrom 0 "f-1" 0

def firstSeen : SeenAlert where
  alert := firstLogin.snapshot { name := "siem" } twoSources
  scored := (firstLogin.scoring (sampleRuntime .free []) {} { name := "siem" } twoSources).isSome

def afterFirstLogin : World :=
  triageOne (sampleRuntime .free []) {} firstLogin.env
    (firstLogin.snapshot { name := "siem" } twoSources) (firstLogin.arrive twoSources)

theorem firstLogin_inTurn :
    TriagedInTurn (sampleRuntime .free []) {} 0 [firstSeen] afterFirstLogin := by
  refine .arrive (.start ⟨?_, ?_⟩) firstLogin { name := "siem" } rfl
    ⟨rfl, fun _ _ => rfl, le_rfl, by decide⟩
  · intro a ha
    cases ha
  · intro key c hc
    cases hc

/-- A second login a minute later. -/
def secondLogin (dataSourceId : ℕ) : Occurrence := loginFrom dataSourceId "f-2" (minutes 1)

theorem secondLogin_punctual (i : ℕ) (source : DataSource) : (secondLogin i).Punctual
    (sampleRuntime .free []) {} 0 source afterFirstLogin where
  redisUp := rfl
  moment _ _ := rfl
  since := show 0 ≤ minutes 1 by decide
  within := show minutes 1 < 0 + hours 1 by decide

theorem secondLogin_scores :
    ((secondLogin 0).scoring (sampleRuntime .free []) {} { name := "siem" }
      afterFirstLogin).isSome ∧
      ((secondLogin 1).scoring (sampleRuntime .free []) {} { name := "edr" }
        afterFirstLogin).isSome := by
  decide +kernel

/-- Redis counts the second login apart, since another source reports it; the database does not. -/
theorem fallback_ignores_source :
    ¬ ∀ (rt : Runtime) (config : TriageConfig) (start : Time) (seen : List SeenAlert)
      (w w₁ : World) (x : Occurrence) (source : DataSource),
      TriagedInTurn rt config start seen w → x.Punctual rt config start source w →
      w.db.dataSources[x.row.dataSourceId]? = some source →
      x.scoring rt config source w = some w₁ →
      ∃ n, returned (getFrequencyCount rt x.env (x.snapshot source w)) w₁ = some n ∧
        returned (getFrequencyCount rt x.env.withoutRedis (x.snapshot source w)) w₁ = some n := by
  intro h
  obtain ⟨w₁, hscoring⟩ := Option.isSome_iff_exists.mp secondLogin_scores.2
  have hpunctual := secondLogin_punctual 1 { name := "edr" }
  have hsource : afterFirstLogin.db.dataSources[1]? = some { name := "edr" } := rfl
  obtain ⟨n, hredis, hfallback⟩ :=
    h _ _ _ _ _ _ _ _ firstLogin_inTurn hpunctual hsource hscoring
  have hcounts := (firstLogin_inTurn.tallied.agree_iff hpunctual hscoring).mp
    (hfallback.trans hredis.symm)
  exact absurd hcounts (by decide +kernel)

theorem fallback_agrees_same_source : ∃ w₁ n,
    (secondLogin 0).scoring (sampleRuntime .free []) {} { name := "siem" } afterFirstLogin =
      some w₁ ∧
    returned (getFrequencyCount (sampleRuntime .free []) (secondLogin 0).env
      ((secondLogin 0).snapshot { name := "siem" } afterFirstLogin)) w₁ = some n ∧
    returned (getFrequencyCount (sampleRuntime .free []) (secondLogin 0).env.withoutRedis
      ((secondLogin 0).snapshot { name := "siem" } afterFirstLogin)) w₁ = some n := by
  obtain ⟨w₁, hscoring⟩ := Option.isSome_iff_exists.mp secondLogin_scores.1
  have halike : ∀ s ∈ [firstSeen],
      CountedAlike ((secondLogin 0).snapshot { name := "siem" } afterFirstLogin) s := by
    intro s hs
    obtain rfl := List.mem_singleton.mp hs
    unfold CountedAlike
    decide +kernel
  obtain ⟨n, hcounts⟩ :=
    fallback_agrees firstLogin_inTurn (secondLogin_punctual 0 _) hscoring halike
  exact ⟨w₁, n, hscoring, hcounts⟩

end Minsight

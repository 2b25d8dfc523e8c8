import Minsight.Eval.HealthCheck
import Minsight.Skills.HistoryAlerts

/-! # What a health check reports

`HealthCheckRunner.run` counts the scenarios that it ran and those that passed, and notifies when
the counts differ. A scenario that raises is not counted, and after the rollback its name cannot be
read any more, so the run ends with it.
-/

namespace Minsight

open Tx Session

def AlertStatus.value : AlertStatus → String
  | .new => "new"
  | .triaged => "triaged"
  | .eventLinked => "event_linked"
  | .archived => "archived"

def InvestigationStatus.value : InvestigationStatus → String
  | .running => "running"
  | .completed => "completed"
  | .failed => "failed"
  | .needsHuman => "needs_human"
  | .degraded => "degraded"

/-- A row of `health_check_scenarios`. -/
structure HealthCheckCase extends HealthCheckScenario where
  expectedOutcome : List (String × Json)
  isActive : Bool := true

/-- A row of `health_check_runs`. -/
structure HealthCheckRow where
  runId : String
  scenario : String
  passed : Bool
  trigger : String
  actual : Json
  mismatches : Json
  errorMessage : Option String
  runAt : Time

def investigationState (db : Db) (tie : ℕ → ℕ) (eventId : ℕ) : List (String × Json) :=
  let investigations := db.investigations.select fun _ inv => decide (inv.eventId = eventId)
  match (Rows.orderLimit (Rows.descending (·.2.startedAt) fun x => tie x.1) 1
      investigations).head? with
  | none => []
  | some (id, inv) =>
    ("investigation_status", .str inv.status.value) ::
      match db.conclusions.find? fun c => decide (c.investigationId = id) with
      | none => []
      | some conclusion => [("verdict", .str conclusion.verdict.value)]

/-- `collect_actual_state` -/
def collectActualState (db : Db) (tie : ℕ → ℕ) (alertId : ℕ) : Except Exn (List (String × Json)) :=
  match db.alerts[alertId]? with
  | none => .ok []
  | some alert => do
    let route ← match db.triageResults.filter (·.alertId = alertId) with
      | [] => .ok []
      | [triage] => .ok [("route_decision", .str triage.routeDecision.value)]
      | _ => .error .multipleResults
    let event := match db.eventAlerts.find? fun l => decide (l.alertId = alertId) with
      | none => []
      | some link =>
        match db.events[link.eventId]? with
        | none => []
        | some event =>
          ("event_status", .str event.status.value) :: investigationState db tie link.eventId
    let probe := if ((alert.normalizedFields.get? healthProbeKey).getD .null).truthy then
      [("defense_skipped", .bool true)] else []
    return ("alert_status", .str alert.status.value) :: (route ++ event ++ probe)

/-- `diff_outcome` -/
def diffOutcome (expected actual : List (String × Json)) : Bool × List (String × Json) :=
  let mismatches := expected.filterMap fun (key, value) =>
    let found := (actual.lookup key).getD .null
    if found.same value then none
    else some (key, .obj [("expected", value), ("actual", found)])
  (mismatches.isEmpty, mismatches)

/-- What the outside world answers while one scenario is run to its end. -/
structure HealthCaseEnv extends HealthCheckEnv where
  tie : ℕ → ℕ := id
  runId : String
  runAt : Time
  /-- A statement that stores the run fails, or its commit. -/
  recordFault : Option Exn := none

section

variable (rt : Runtime) (config : HealthCheckConfig)

/-- `_run_one` -/
def runHealthCase (env : HealthCaseEnv) (trigger : String) (scenario : HealthCheckCase) :
    Session HealthCheckRow := do
  let alertId ← injectProbe rt env.toHealthCheckEnv scenario.toHealthCheckScenario
  runToStage rt config env.toHealthCheckEnv alertId scenario.expectedStage
  let db ← Session.query id
  match collectActualState db env.tie alertId with
  | .error e => Tx.raise e
  | .ok actual =>
    let (passed, mismatches) := diffOutcome scenario.expectedOutcome actual
    let runAt ← utcNow rt env.runAt
    Tx.fallible env.recordFault
    pure {
      runId := env.runId, scenario := scenario.name, passed, trigger, actual := .obj actual
      mismatches := .obj mismatches
      errorMessage := if passed then none else some (rt.str (.obj mismatches)), runAt }

structure HealthReport where
  total : ℕ := 0
  passed : ℕ := 0
  failed : ℕ := 0
  skippedLock : Bool := false
  runs : List HealthCheckRow := []
  errors : List String := []
  /-- The title and the detail that `notify_eval_failure` is called with, which posts them where a
  webhook is configured. -/
  notified : Option (String × String) := none

structure HealthRunEnv where
  lockAcquired : Bool := true
  /-- `load_eval_config`: whether health checks are enabled, or the text of its `ValueError`. -/
  enabled : Except String Bool := .ok true
  items : String → HealthCaseEnv
  /-- `str(exc)` -/
  message : Exn → String := fun _ => ""

def healthReportLoop (env : HealthRunEnv) (trigger : String) :
    Loop Exn World HealthCheckCase HealthCheckRow HealthReport where
  body scenario := runHealthCase rt config (env.items scenario.name) trigger scenario
  -- every transaction of a scenario has been committed or rolled back when it raises
  rollback _ w := w
  expired := rt.readAfterRollback
  onOk r _ row := { r with
    runs := r.runs ++ [row]
    total := r.total + 1
    passed := r.passed + row.passed.toNat }
  onError r scenario e := { r with
    errors := r.errors ++ [scenario.name ++ ": " ++ env.message e] }

/-- `_load_scenarios` -/
def loadScenarios (table : Rows HealthCheckCase) (scenarioId : Option ℕ) : List HealthCheckCase :=
  let active := table.select fun id scenario =>
    scenario.isActive && (scenarioId.map fun wanted => decide (id = wanted)).getD true
  (active.map Prod.snd).insertionSort fun a b => a.name ≤ b.name

def HealthReport.finish (r : HealthReport) : HealthReport :=
  let failed := r.total - r.passed
  { r with
    failed
    notified := if failed = 0 then none
      else some ("Health check failed",
        toString failed ++ "/" ++ toString r.total ++ " scenarios failed") }

/-- `HealthCheckRunner.run` -/
def healthReport (env : HealthRunEnv) (trigger : String) (useLock : Bool)
    (table : Rows HealthCheckCase) (scenarioId : Option ℕ) : Session HealthReport := do
  if useLock && !env.lockAcquired then pure { skippedLock := true }
  else
    match env.enabled with
    | .error text => pure { errors := ["invalid eval config: " ++ text] }
    | .ok false => pure { errors := ["health checks disabled"] }
    | .ok true =>
      let scenarios := loadScenarios table scenarioId
      if scenarios.isEmpty then pure { errors := ["no active health check scenarios"] }
      else
        let r ← (healthReportLoop rt config env trigger).run scenarios {}
        pure r.finish

end

section

variable {rt : Runtime} {config : HealthCheckConfig} {env : HealthRunEnv} {trigger : String}
  {useLock : Bool} {table : Rows HealthCheckCase} {scenarioId : Option ℕ} {w w' : World}
  {scenarios : List HealthCheckCase} {r r' : HealthReport}

theorem runHealthCase_db (caseEnv : HealthCaseEnv) (scenario : HealthCheckCase) :
    (exec (runHealthCase rt config caseEnv trigger scenario) w).2.db =
      (exec (healthCheckRunOne rt config caseEnv.toHealthCheckEnv
        scenario.toHealthCheckScenario) w).2.db := by
  unfold runHealthCase healthCheckRunOne
  rw [exec_bind, exec_bind]
  rcases exec (injectProbe rt caseEnv.toHealthCheckEnv scenario.toHealthCheckScenario) w with
    ⟨e | alertId, w₁⟩
  · rfl
  · dsimp only
    rw [exec_bind]
    rcases exec (runToStage rt config caseEnv.toHealthCheckEnv alertId scenario.expectedStage) w₁
      with ⟨e | u, w₂⟩
    · rfl
    · dsimp only
      rw [exec_query_bind]
      split
      · rfl
      · rw [exec_utcNow_bind, exec_bind]
        cases caseEnv.recordFault <;> rfl

/-- The scenarios that a run attempts. -/
def attemptedScenarios (env : HealthRunEnv) (useLock : Bool) (table : Rows HealthCheckCase)
    (scenarioId : Option ℕ) : List HealthCheckCase :=
  match useLock && !env.lockAcquired, env.enabled with
  | false, .ok true => loadScenarios table scenarioId
  | _, _ => []

theorem healthReportLoop_counts {scenarios : List HealthCheckCase}
    (h : exec ((healthReportLoop rt config env trigger).run scenarios r) w = (.ok r', w')) :
    r'.total = r.total + ((healthReportLoop rt config env trigger).survivors scenarios w).length ∧
      (r.passed ≤ r.total → r'.passed ≤ r'.total) := by
  induction scenarios generalizing r w with
  | nil =>
    obtain ⟨hr, -⟩ := Prod.mk.inj h
    obtain rfl := Except.ok.inj hr
    exact ⟨rfl, id⟩
  | cons scenario scenarios ih =>
    rcases hbody : exec ((healthReportLoop rt config env trigger).body scenario) w with
      ⟨e | row, w₁⟩
    · cases hexpired : (healthReportLoop rt config env trigger).expired with
      | some e' =>
        rw [Loop.exec_run_expired hbody hexpired] at h
        cases (Prod.mk.inj h).1
      | none =>
        rw [Loop.exec_run_error hbody hexpired] at h
        rw [Loop.survivors, hbody]
        have hrest := ih h
        exact hrest
    · rw [Loop.exec_run_ok hbody] at h
      obtain ⟨htotal, hpassed⟩ := ih h
      rw [Loop.survivors, hbody]
      constructor
      · rw [htotal, List.length_cons]
        exact Nat.add_right_comm r.total 1 _
      · intro hle
        apply hpassed
        exact Nat.add_le_add hle (Bool.toNat_le row.passed)

theorem length_survivors {scenarios : List HealthCheckCase} :
    ((healthReportLoop rt config env trigger).survivors scenarios w).length +
      ((healthReportLoop rt config env trigger).failures scenarios w).length =
        scenarios.length := by
  induction scenarios generalizing w with
  | nil => rfl
  | cons scenario scenarios ih =>
    rcases hbody : exec ((healthReportLoop rt config env trigger).body scenario) w with
      ⟨e | row, w₁⟩
    · rw [Loop.survivors, Loop.failures, hbody]
      simp only [List.length_cons]
      rw [← Nat.add_assoc, ih]
    · rw [Loop.survivors, Loop.failures, hbody]
      simp only [List.length_cons]
      rw [Nat.add_right_comm, ih]

/-- A run accounts for the scenarios that it attempts: each is counted as passed or as failed, those
that return are reported as if the others were absent, and a failure is notified just when some
scenario did not pass. -/
def AccountsForAll (rt : Runtime) (config : HealthCheckConfig) (env : HealthRunEnv)
    (trigger : String) (useLock : Bool) (table : Rows HealthCheckCase) (scenarioId : Option ℕ)
    (w : World) : Prop :=
  let attempted := attemptedScenarios env useLock table scenarioId
  let loop := healthReportLoop rt config env trigger
  ∃ r w', exec (healthReport rt config env trigger useLock table scenarioId) w = (.ok r, w') ∧
    r.passed + r.failed = attempted.length ∧
    (∃ alone wAlone, exec (loop.run (loop.survivors attempted w) {}) w = (.ok alone, wAlone) ∧
      r.runs = alone.runs ∧ r.passed = alone.passed ∧ w'.db = wAlone.db) ∧
    (r.notified.isSome = true ↔ r.passed < attempted.length)

theorem finish_counts (hle : r.passed ≤ r.total) :
    r.finish.passed + r.finish.failed = r.total ∧
      (r.finish.notified.isSome = true ↔ r.finish.passed < r.total) := by
  have hfailed : r.finish.failed = r.total - r.passed := rfl
  have hpassed : r.finish.passed = r.passed := rfl
  refine ⟨by omega, ?_⟩
  rw [HealthReport.finish]
  dsimp only
  split <;> simp <;> omega

theorem exec_healthReport (hne : attemptedScenarios env useLock table scenarioId ≠ []) :
    exec (healthReport rt config env trigger useLock table scenarioId) w =
      exec (HealthReport.finish <$> (healthReportLoop rt config env trigger).run
        (attemptedScenarios env useLock table scenarioId) {}) w := by
  unfold attemptedScenarios at hne ⊢
  unfold healthReport
  split at hne
  · rename_i hlock henabled
    have hempty : (loadScenarios table scenarioId).isEmpty = false := by
      rw [List.isEmpty_eq_false_iff]
      exact hne
    rw [hlock, henabled]
    simp only [Bool.false_eq_true, if_false, hempty]
    rw [map_eq_pure_bind]
  · exact absurd rfl hne

theorem exec_healthReport_nil (hnil : attemptedScenarios env useLock table scenarioId = []) :
    ∃ r, exec (healthReport rt config env trigger useLock table scenarioId) w = (.ok r, w) ∧
      r.passed = 0 ∧ r.failed = 0 ∧ r.runs = [] ∧ r.notified = none := by
  unfold attemptedScenarios at hnil
  unfold healthReport
  cases hlock : useLock && !env.lockAcquired with
  | true => exact ⟨_, rfl, rfl, rfl, rfl, rfl⟩
  | false =>
    rw [if_neg Bool.false_ne_true]
    cases henabled : env.enabled with
    | error text => exact ⟨_, rfl, rfl, rfl, rfl, rfl⟩
    | ok enabled =>
      cases enabled with
      | false => exact ⟨_, rfl, rfl, rfl, rfl, rfl⟩
      | true =>
        rw [hlock, henabled] at hnil
        dsimp only at hnil ⊢
        rw [hnil, List.isEmpty_nil, if_pos rfl]
        exact ⟨_, rfl, rfl, rfl, rfl, rfl⟩

theorem accounts_of_failures (hnone : (healthReportLoop rt config env trigger).failures
    (attemptedScenarios env useLock table scenarioId) w = []) :
    AccountsForAll rt config env trigger useLock table scenarioId w := by
  unfold AccountsForAll
  dsimp only
  rcases eq_or_ne (attemptedScenarios env useLock table scenarioId) [] with hnil | hne
  · obtain ⟨r, hexec, hpassed, hfailed, hruns, hnotified⟩ :=
      @exec_healthReport_nil rt config env trigger useLock table scenarioId w hnil
    rw [hnil]
    have hcount : r.passed + r.failed = ([] : List HealthCheckCase).length := by
      rw [hpassed, hfailed]
      rfl
    have hnotify : r.notified.isSome = true ↔ r.passed < ([] : List HealthCheckCase).length := by
      rw [hnotified, hpassed]
      simp
    exact ⟨r, w, hexec, hcount, ⟨{}, w, rfl, hruns, hpassed, rfl⟩, hnotify⟩
  · rw [exec_healthReport hne, exec_map]
    generalize attemptedScenarios env useLock table scenarioId = scenarios at hnone
    obtain ⟨r, w', hrun⟩ := Loop.run_of_failures (r := {}) hnone
    obtain ⟨htotal, hpassed⟩ := healthReportLoop_counts hrun
    rw [Loop.survivors_of_failures hnone] at htotal ⊢
    obtain ⟨hcount, hnotified⟩ := finish_counts (hpassed le_rfl)
    have htotal : r.total = scenarios.length := by simpa using htotal
    rw [htotal] at hcount hnotified
    rw [hrun]
    exact ⟨r.finish, w', rfl, hcount, ⟨r, w', rfl, rfl, rfl, rfl⟩, hnotified⟩

/-- A scenario that raises is not accounted for: only the scenarios that return are counted, and
none where the rollback ends the run. -/
theorem failures_of_accounts (h : AccountsForAll rt config env trigger useLock table scenarioId w) :
    (healthReportLoop rt config env trigger).failures
      (attemptedScenarios env useLock table scenarioId) w = [] := by
  obtain ⟨r, w', hexec, hcount, -, -⟩ := h
  rcases eq_or_ne (attemptedScenarios env useLock table scenarioId) [] with hnil | hne
  · rw [hnil]
    rfl
  · rw [exec_healthReport hne, exec_map] at hexec
    generalize attemptedScenarios env useLock table scenarioId = scenarios at hexec hcount
    rcases hrun : exec ((healthReportLoop rt config env trigger).run scenarios {}) w with
      ⟨e | r₀, w₀⟩
    · rw [hrun] at hexec
      cases (Prod.mk.inj hexec).1
    · rw [hrun] at hexec
      obtain rfl := Except.ok.inj (Prod.mk.inj hexec).1
      obtain ⟨htotal, hpassed⟩ := healthReportLoop_counts hrun
      have hfinish := (finish_counts (hpassed le_rfl)).1
      have hlength := @length_survivors rt config env trigger w scenarios
      apply List.length_eq_zero_iff.mp
      dsimp only at htotal
      omega

/-- A run accounts for its scenarios exactly when none of them raises. -/
theorem healthReport_accounts_iff :
    AccountsForAll rt config env trigger useLock table scenarioId w ↔
      (healthReportLoop rt config env trigger).failures
        (attemptedScenarios env useLock table scenarioId) w = [] :=
  ⟨failures_of_accounts, accounts_of_failures⟩

/-- A scenario whose payload cannot be mapped. -/
def unmappedCase : HealthCheckCase where
  name := "chain"
  expectedStage := .ingestion
  expectedOutcome := [("alert_status", .str "new")]

def unmappedEnv : HealthRunEnv where
  items _ := {
    normalized := .error .typeError
    suffix := "0"
    injectedAt := 0
    triage := { items := fun _ => { dedupNow := 0 } }
    aggregation := { items := fun _ => { now := 0 } }
    investigation := {
      startedAt := 0, agent := { chat := fun _ _ => .error .external, clock := fun _ => 0 }
      finishedAt := 0 }
    runId := "1"
    runAt := 0 }

/-- One scenario that raises is not counted as failed. -/
theorem healthReport_not_accounts :
    ¬ AccountsForAll (sampleRuntime .free []) {} unmappedEnv "manual" false [unmappedCase] none
      { db := { dataSources := [{ name := healthProbeSourceName }] } } := by
  intro h
  have hnone := failures_of_accounts h
  cases hnone

end

end Minsight

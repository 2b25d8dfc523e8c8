import Minsight.Aggregation.Effects
import Minsight.Lifecycle.Refinement

/-! # The lifecycle of every alert, over whole runs

Ingestion, triage, aggregation and sampling each move alerts from stage to stage. All
other services leave the tables of the lifecycle alone.
-/

namespace Minsight

open Tx Session

abbrev KeepsStages : World → World → Prop := OnDb fun db db' => AlertsStaged db → AlertsStaged db'

theorem keepsStages_of_intake {α : Type} {m : Session α} (h : Respects (Keeps Db.intake) m) :
    Respects KeepsStages m :=
  h.mono fun _ _ hi hs => hs.congr hi

theorem keepsStages_of_leaves {rt : Runtime} {α : Type} {m : Session α}
    (h : Respects (Leaves rt Db.intake) m) : Respects KeepsStages m :=
  h.mono fun _ _ hi hs => hs.congr hi.db

section

variable {rt : Runtime}

theorem runBatch_stages {source : ℕ} {env : IngestBatchEnv} :
    Respects KeepsStages (runBatch rt source env) := by
  refine respects_transaction fun w result w' h hs => ?_
  simp only [exec_fallible_bind_ok, exec_utcNow_bind, exec_query_bind, exec_modify_bind, exec_pure,
    Prod.mk.injEq] at h
  obtain ⟨-, -, -, rfl⟩ := h
  exact hs.insertNew fun a ha => by
    obtain ⟨n, -, rfl⟩ := List.mem_map.mp ha
    rfl

theorem runForSource_stages {env : IngestRunEnv} {source maxBatches : ℕ} {useLock : Bool} :
    Respects KeepsStages (runForSource rt env source maxBatches useLock) :=
  runForSource_respects fun _ => runBatch_stages

theorem triageRun_stages {config : TriageConfig} {env : TriageRunEnv} {limit : Option ℤ}
    {useLock : Bool} : Respects KeepsStages (triageRun rt config env limit useLock) :=
  triageRun_respects fun _ _ _ ht hs => hs.triaged ht

/-- Aggregating an alert moves no other alert, and the alert no further than to its event. -/
theorem Waits.linked {config : AggregationConfig} {tie : ℕ → ℕ} {item : PendingAlert}
    {db db' : Db} {i : ℕ} (h : Waits db i) (hl : Linked rt config tie item db db') :
    Waits db' i := by
  obtain ⟨dims, eventId, events, now, -, -, -, rfl⟩ := hl
  by_cases he : item.alertId = i
  · subst he
    right
    obtain ⟨a, ha⟩ : ∃ a, db.alerts[item.alertId]? = some a := by
      rcases h with h | h <;> obtain ⟨a, ha, -⟩ := Option.map_eq_some_iff.mp h <;> exact ⟨a, ha⟩
    simp [recordLink, statusOf_modify_self, ha]
  · simpa only [Waits, recordLink, statusOf_modify_ne he] using h

theorem waits_of_mem_fetchPending {tie : ℕ → ℕ} {n : ℕ} {db : Db} {item : PendingAlert}
    (h : item ∈ fetchPending tie n db) : Waits db item.alertId := by
  have hmem := Rows.mem_of_mem_orderLimit h
  simp only [List.mem_flatMap, Prod.exists, Rows.mem_select, List.mem_map] at hmem
  obtain ⟨i, a, ⟨ha, hs⟩, t, -, rfl⟩ := hmem
  simp only [Bool.and_eq_true, beq_iff_eq] at hs
  exact .inl (by simp [statusOf, ha, hs.1])

theorem aggregationRun_stages {config : AggregationConfig} {env : AggregationRunEnv}
    {limit : Option ℤ} {useLock : Bool} :
    Respects KeepsStages (aggregationRun rt config env limit useLock) := by
  unfold aggregationRun
  split
  · exact respects_pure _
  · refine (respects_sqlLimit _).bind fun n => (respects_fallible _).bind fun _ w hs => ?_
    rw [exec_query_bind]
    -- the alerts still to come wait for their events
    refine Loop.run_rule (fun (items : List PendingAlert) _ (w : World) =>
      AlertsStaged w.db ∧ ∀ item ∈ items, Waits w.db item.alertId)
      (fun w => AlertsStaged w.db) (fun item items r w created w' h hb => ?_)
      (fun item items r w e w' h _ => ⟨h.1, fun i hi => h.2 i (List.mem_cons_of_mem _ hi)⟩)
      (fun _ _ _ h => h.1) ⟨hs, fun item hi => waits_of_mem_fetchPending hi⟩
    obtain ⟨created, w₁, hone, hc⟩ := exec_bind_ok.mp hb
    simp only [exec_fallible_bind_ok, exec_pure, Prod.mk.injEq] at hc
    obtain ⟨-, -, rfl⟩ := hc
    have hlinked := aggregateOne_linked hone
    refine ⟨?_, fun i hi => (h.2 i (List.mem_cons_of_mem _ hi)).linked hlinked⟩
    obtain ⟨dims, eventId, events, now, -, hfresh, -, hdb⟩ := hlinked
    rw [hdb]
    have hstaged : AlertsStaged { w.db with events := events } := h.1.congr rfl
    exact hstaged.link (h.2 item List.mem_cons_self) hfresh

theorem unsampledAlerts_eq_nil {db : Db} (h : AlertsStaged db) : unsampledAlerts db = [] := by
  refine List.eq_nil_iff_forall_not_mem.mpr fun i hi => ?_
  simp only [unsampledAlerts, List.mem_flatMap, Prod.exists, Rows.mem_select, List.mem_map,
    List.mem_filter, Bool.and_eq_true, beq_iff_eq] at hi
  obtain ⟨j, a, ⟨ha, hs, hm⟩, t, ⟨ht, hid, hroute⟩, rfl⟩ := hi
  have hstage := h j
  have hmem : t ∈ resultsOf db.triageResults j := by simp [resultsOf, ht, hid]
  have hnil : samplesOf db.auditSamples j = [] := by simpa [samplesOf] using hm
  have hstatus : statusOf db.alerts j = some .archived := by simp [statusOf, ha, hs]
  rw [hstatus, hnil] at hstage
  generalize resultsOf db.triageResults j = ts, linksOf db.eventAlerts j = ls at hstage hmem
  cases hstage with
  | archived flags route sampled =>
    obtain rfl := List.mem_singleton.mp hmem
    simp [hroute, RouteDecision.samples] at sampled

theorem auditSampleRun_db {enabled : Bool} {env : AuditSampleEnv} {limit : ℤ} {w : World}
    (h : AlertsStaged w.db) : (exec (auditSampleRun enabled env limit) w).2.db = w.db := by
  rw [auditSampleRun, transaction, exec_atomically]
  split
  · rename_i r w' hr
    split at hr
    · simp only [exec_pure, Prod.mk.injEq] at hr
      rw [hr.2]
    · obtain ⟨n, w₁, hn, hr⟩ := exec_bind_ok.mp hr
      obtain ⟨-, -, rfl⟩ := exec_sqlLimit_ok.mp hn
      simp [unsampledAlerts_eq_nil h] at hr
      rw [← hr.2.2]
  · rfl

theorem auditSampleRun_stages {enabled : Bool} {env : AuditSampleEnv} {limit : ℤ} :
    Respects KeepsStages (auditSampleRun enabled env limit) := fun w hs => by
  rw [auditSampleRun_db hs]
  exact hs

theorem injectProbe_stages {env : HealthCheckEnv} {scenario : HealthCheckScenario} :
    Respects KeepsStages (injectProbe rt env scenario) := by
  refine respects_transaction fun w alertId w' h hs => ?_
  rw [exec_query_bind] at h
  split at h
  · simp at h
  · split at h
    · simp at h
    · simp only [exec_utcNow_bind, exec_query_bind] at h
      split at h
      · simp at h
      · simp only [exec_modify_bind, exec_fallible_bind_ok, exec_pure, Prod.mk.injEq] at h
        obtain ⟨-, -, rfl⟩ := h
        exact hs.insert rfl

theorem investigateProbe_stages {config : HealthCheckConfig} {env : HealthCheckEnv}
    {alertId : ℕ} : Respects KeepsStages (investigateProbe rt config env alertId) := by
  refine (respects_query _).bind fun links => ?_
  split
  · exact respects_pure _
  · exact transaction_respects ((keepsStages_of_intake investigateEvent_intake).bind fun _ =>
      respects_fallible _)

theorem runToStage_stages {config : HealthCheckConfig} {env : HealthCheckEnv} {alertId : ℕ}
    {target : HealthCheckStage} : Respects KeepsStages (runToStage rt config env alertId target) := by
  unfold runToStage
  split
  · exact respects_pure _
  · refine triageRun_stages.bind fun _ => ?_
    split
    · exact respects_pure _
    · refine aggregationRun_stages.bind fun _ => ?_
      split
      · exact respects_pure _
      · exact investigateProbe_stages

theorem healthCheckRun_stages {config : HealthCheckConfig} {env : HealthCheckRunEnv}
    {scenarios : List HealthCheckScenario} {useLock : Bool} :
    Respects KeepsStages (healthCheckRun rt config env scenarios useLock) := by
  have one (scenario : HealthCheckScenario) : Respects KeepsStages
      (healthCheckRunOne rt config (env.items scenario.name) scenario) :=
    injectProbe_stages.bind fun _ => runToStage_stages
  unfold healthCheckRun
  split
  · exact respects_pure _
  · exact Loop.respects_run (fun _ _ _ _ hb => (one _).of_exec hb)
      fun _ _ _ _ hb => (one _).of_exec hb

theorem perform_stages (l : Label) : Respects KeepsStages (perform rt l) := by
  cases l with
  | configure settings => exact keepsStages_of_intake (keeps_modify fun _ => rfl)
  | ingest env source maxBatches useLock => exact runForSource_stages.map _
  | triage config env limit useLock => exact triageRun_stages.map _
  | aggregate config env limit useLock => exact aggregationRun_stages.map _
  | auditSample enabled env limit => exact auditSampleRun_stages.map _
  | investigate config env limit useLock =>
    exact keepsStages_of_intake ((investigationRun_respects fun _ => investigateEvent_intake).map _)
  | review config env limit useLock => exact keepsStages_of_leaves (humanReviewRun_leaves.map _)
  | reply config env rawContent externalMsgId responder requestId =>
    exact keepsStages_of_leaves (handleReply_leaves.map _)
  | cancel commitFault requestId =>
    exact @keepsStages_of_leaves rt _ _ (cancelRequest_leaves.map _)
  | settle config env limit useLock => exact keepsStages_of_leaves (assetPipelineRun_leaves.map _)
  | confirm now commitFault recordId action by_ =>
    exact keepsStages_of_leaves (decideDisposition_leaves.map _)
  | reject now commitFault recordId =>
    exact keepsStages_of_leaves (decideDisposition_leaves.map _)
  | healthCheck config env scenarios useLock => exact healthCheckRun_stages.map _

theorem alertsStaged_of_reachable {w : World} (h : (system rt {}).Reachable w) :
    AlertsStaged w.db := by
  refine h.invariant (I := fun w => AlertsStaged w.db) alertsStaged_empty fun w l w' hw _ hstep => ?_
  obtain rfl := Option.some.inj hstep
  exact perform_stages l w hw

def Label.movesAlerts : Label → Bool
  | .ingest .. | .triage .. | .aggregate .. | .healthCheck .. => true
  | _ => false

theorem perform_keepsAlerts {l : Label} (hl : l.movesAlerts = false) :
    Respects (Keeps fun db => (db.alerts, db.eventAlerts)) (perform rt l) := by
  have intake {α : Type} {m : Session α} (h : Respects (Keeps Db.intake) m) :
      Respects (Keeps fun db => (db.alerts, db.eventAlerts)) m := h.mono fun w w' hi => by
    simp only [Keeps, OnDb, Db.intake, Prod.mk.injEq] at hi ⊢
    exact ⟨hi.1, hi.2.2.1⟩
  have leaves {α β : Type} {f : Db → β} {m : Session α} (h : Respects (Leaves rt f) m) :
      Respects (Keeps f) m := h.mono fun _ _ => Leaves.db
  cases l with
  | configure settings => exact keeps_modify fun _ => rfl
  | auditSample enabled env limit =>
    exact (leaves (@auditSampleRun_leaves rt _ _ (fun _ _ => rfl) _ _ _)).map _
  | investigate config env limit useLock =>
    exact intake ((investigationRun_respects fun _ => investigateEvent_intake).map _)
  | review config env limit useLock =>
    exact intake (leaves (@humanReviewRun_leaves rt _ _ _ _ |>.map _))
  | reply config env rawContent externalMsgId responder requestId =>
    exact intake (leaves (handleReply_leaves.map _))
  | cancel commitFault requestId =>
    exact intake (leaves (@cancelRequest_leaves rt _ _ |>.map _))
  | settle config env limit useLock => exact intake (leaves (assetPipelineRun_leaves.map _))
  | confirm now commitFault recordId action by_ =>
    exact intake (leaves (decideDisposition_leaves.map _))
  | reject now commitFault recordId => exact intake (leaves (decideDisposition_leaves.map _))
  | ingest => cases hl
  | triage => cases hl
  | aggregate => cases hl
  | healthCheck => cases hl

/-- How the status of an alert, its triage results, its links and its samples fit. -/
structure AlertInvariant (status : AlertStatus) (results : List TriageResult)
    (links : List EventAlert) (samples : List AuditSample) : Prop where
  new : status = .new ↔ results = []
  unlinked : status = .new → links = []
  unsampled : status = .new → samples = []
  result : status ≠ .new → ∃ t, results = [t] ∧
    (status = .archived ↔ t.routeDecision.isArchive = true) ∧
    (status = .archived → links = []) ∧
    (status = .triaged ↔ t.routeDecision.isQueue = true ∧ links = []) ∧
    (status = .eventLinked ↔ t.routeDecision.isQueue = true ∧ links.length = 1) ∧
    (t.whitelistRuleId.isSome = true ↔ t.routeDecision = .archiveWhitelist) ∧
    (t.dedupHit = true ↔ t.routeDecision = .archiveDedup) ∧
    samples.length = if t.routeDecision = .sampleAudit then 1 else 0

theorem Stage.alertInvariant {status : AlertStatus} {ts : List TriageResult}
    {ls : List EventAlert} {ms : List AuditSample} (h : Stage (some status) ts ls ms) :
    AlertInvariant status ts ls ms := by
  cases h with
  | new => exact ⟨by simp, by simp, by simp, by simp⟩
  | archived flags route sampled =>
    refine ⟨by simp, by simp, by simp, fun _ => ⟨_, rfl, ?_⟩⟩
    have hq := route
    rw [isArchive_eq_not_isQueue, Bool.not_eq_true'] at hq
    simp [route, hq, flags.whitelist, flags.dedup, sampled, RouteDecision.samples]
  | triaged flags route =>
    refine ⟨by simp, by simp, by simp, fun _ => ⟨_, rfl, ?_⟩⟩
    simp [route, isArchive_eq_not_isQueue, ne_sampleAudit_of_isQueue route, flags.whitelist,
      flags.dedup]
  | linked flags route =>
    refine ⟨by simp, by simp, by simp, fun _ => ⟨_, rfl, ?_⟩⟩
    simp [route, isArchive_eq_not_isQueue, ne_sampleAudit_of_isQueue route, flags.whitelist,
      flags.dedup]

/--
In every state reached from an empty database the status of an alert, its triage results,
its links and its audit samples fit each other, and a sampling run adds no sample.
-/
theorem alert_lifecycle {w : World} (h : (system rt {}).Reachable w) :
    (∀ i a, w.db.alerts[i]? = some a →
      AlertInvariant a.status (resultsOf w.db.triageResults i) (linksOf w.db.eventAlerts i)
        (samplesOf w.db.auditSamples i)) ∧
      ∀ enabled env limit,
        (exec (auditSampleRun enabled env limit) w).2.db.auditSamples = w.db.auditSamples := by
  have hstaged := alertsStaged_of_reachable h
  refine ⟨fun i a ha => Stage.alertInvariant ?_, fun _ _ _ => by rw [auditSampleRun_db hstaged]⟩
  simpa [statusOf, ha] using hstaged i

/-- One alert is ingested and triaged. -/
def triagedRun : List Label :=
  [.oneSource,
    .ingestAll 0 [{ sourceAlertId := "a-1", fingerprint := "f-1", severity := 5, occurredAt := 0 }],
    .triage {} { items := fun _ => { dedupNow := 60000000 } } none true]

theorem alert_lifecycle_triaged :
    ∃ w, (system (sampleRuntime .free []) {}).run triagedRun {} = some w ∧
      w.db.alerts.map (·.status) = [.triaged] ∧ w.db.triageResults.length = 1 ∧
      ∀ i a, w.db.alerts[i]? = some a →
        AlertInvariant a.status (resultsOf w.db.triageResults i) (linksOf w.db.eventAlerts i)
          (samplesOf w.db.auditSamples i) := by
  have hrun : (system (sampleRuntime .free []) {}).run triagedRun {} = some _ := rfl
  exact ⟨_, hrun, by decide +kernel, by decide +kernel,
    (alert_lifecycle (System.reachable_of_run hrun)).1⟩

end

end Minsight

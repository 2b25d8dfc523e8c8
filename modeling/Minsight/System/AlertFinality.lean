import Minsight.System.AlertLifecycle

/-! # Decisions on alerts are final

Triage results, event links and audit samples are only added, and of an alert nothing but its
status and its group is written. With the stages of the lifecycle a decision, once it is taken,
stays.
-/

namespace Minsight

open Tx Session

def Alert.content (a : Alert) : Alert := { a with dedupGroupId := none, status := .new }

/-- Rows are only added to the tables of the lifecycle, and alerts keep their contents. -/
structure Appends (db db' : Db) : Prop where
  contents : db.alerts.map Alert.content <+: db'.alerts.map Alert.content
  results : db.triageResults <+: db'.triageResults
  links : db.eventAlerts <+: db'.eventAlerts
  samples : db.auditSamples <+: db'.auditSamples

instance : Std.Refl Appends where
  refl _ := ⟨List.prefix_rfl, List.prefix_rfl, List.prefix_rfl, List.prefix_rfl⟩

instance : IsTrans Db Appends where
  trans _ _ _ h h' := ⟨h.contents.trans h'.contents, h.results.trans h'.results,
    h.links.trans h'.links, h.samples.trans h'.samples⟩

theorem appends_of_intake {db db' : Db} (h : db'.intake = db.intake) : Appends db db' := by
  simp only [Db.intake, Prod.mk.injEq] at h
  obtain ⟨halerts, hresults, hlinks, hsamples⟩ := h
  exact ⟨halerts ▸ List.prefix_rfl, hresults ▸ List.prefix_rfl, hlinks ▸ List.prefix_rfl,
    hsamples ▸ List.prefix_rfl⟩

section

variable {rt : Runtime}

theorem respects_appends_of_intake {α : Type} {m : Session α} (h : Respects (Keeps Db.intake) m) :
    Respects (OnDb Appends) m :=
  h.mono fun _ _ => appends_of_intake

theorem respects_appends_of_leaves {α : Type} {m : Session α}
    (h : Respects (Leaves rt Db.intake) m) : Respects (OnDb Appends) m :=
  h.mono fun _ _ hi => appends_of_intake hi.db

theorem runBatch_appends {source : ℕ} {env : IngestBatchEnv} :
    Respects (OnDb Appends) (runBatch rt source env) := by
  refine respects_transaction fun w result w' h => ?_
  simp only [exec_fallible_bind_ok, exec_utcNow_bind, exec_query_bind, exec_modify_bind, exec_pure,
    Prod.mk.injEq] at h
  obtain ⟨-, -, -, rfl⟩ := h
  exact ⟨Conflicts.prefix_insertAbsent.map Alert.content, List.prefix_rfl, List.prefix_rfl,
    List.prefix_rfl⟩

theorem triageRun_appends {config : TriageConfig} {env : TriageRunEnv} {limit : Option ℤ}
    {useLock : Bool} : Respects (OnDb Appends) (triageRun rt config env limit useLock) := by
  refine triageRun_respects fun alert db db' h => ?_
  obtain ⟨ctx, route, now, -, -, -, -, hdb⟩ := h
  have halerts : db'.alerts = db.alerts.modify ctx.alert.id (routedAlert ctx route) :=
    (congrArg Db.alerts hdb :)
  have hresults : db'.triageResults = db.triageResults ++ [triageResultOf ctx route now] :=
    (congrArg Db.triageResults hdb :)
  have hlinks : db'.eventAlerts = db.eventAlerts := (congrArg Db.eventAlerts hdb :)
  have hsamples : db'.auditSamples = (recordTriage ctx route now db).auditSamples :=
    (congrArg Db.auditSamples hdb :)
  have hcontents : db'.alerts.map Alert.content = db.alerts.map Alert.content :=
    halerts ▸ Rows.map_update_eq fun _ => rfl
  refine ⟨hcontents ▸ List.prefix_rfl, hresults ▸ List.prefix_append _ _,
    hlinks ▸ List.prefix_rfl, ?_⟩
  rw [hsamples, recordTriage]
  split
  · exact List.prefix_append _ _
  · exact List.prefix_rfl

theorem appends_of_linked {config : AggregationConfig} {tie : ℕ → ℕ} {item : PendingAlert}
    {db db' : Db} (h : Linked rt config tie item db db') : Appends db db' := by
  obtain ⟨dims, eventId, events, now, -, -, -, rfl⟩ := h
  have hcontents : (db.alerts.modify item.alertId fun a => { a with status := .eventLinked }).map
      Alert.content = db.alerts.map Alert.content := Rows.map_update_eq fun _ => rfl
  exact ⟨hcontents ▸ List.prefix_rfl, List.prefix_rfl, List.prefix_append _ _, List.prefix_rfl⟩

theorem aggregationRun_appends {config : AggregationConfig} {env : AggregationRunEnv}
    {limit : Option ℤ} {useLock : Bool} :
    Respects (OnDb Appends) (aggregationRun rt config env limit useLock) := by
  unfold aggregationRun
  split
  · exact respects_pure _
  · refine (respects_sqlLimit _).bind fun n => (respects_fallible _).bind fun _ =>
      (respects_query _).bind fun items =>
        Loop.respects_run (fun item w created w' hb => ?_) fun _ w _ _ _ =>
          Std.Refl.refl (r := Appends) w.db
    obtain ⟨created, w₁, hone, hc⟩ := exec_bind_ok.mp hb
    simp only [exec_fallible_bind_ok, exec_pure, Prod.mk.injEq] at hc
    obtain ⟨-, -, rfl⟩ := hc
    exact appends_of_linked (aggregateOne_linked hone)

theorem injectProbe_appends {env : HealthCheckEnv} {scenario : HealthCheckScenario} :
    Respects (OnDb Appends) (injectProbe rt env scenario) := by
  refine respects_transaction fun w alertId w' h => ?_
  rw [exec_query_bind] at h
  split at h
  · simp at h
  · split at h
    · simp at h
    · simp only [exec_utcNow_bind, exec_query_bind] at h
      split at h
      · simp at h
      · simp only [exec_modify_bind, exec_fallible_bind_ok, exec_pure, Prod.mk.injEq] at h
        obtain ⟨-, -, rfl⟩ := h
        exact ⟨by simp, List.prefix_rfl, List.prefix_rfl, List.prefix_rfl⟩

theorem investigateProbe_appends {config : HealthCheckConfig} {env : HealthCheckEnv}
    {alertId : ℕ} : Respects (OnDb Appends) (investigateProbe rt config env alertId) := by
  refine (respects_query _).bind fun links => ?_
  split
  · exact respects_pure _
  · exact transaction_respects ((respects_appends_of_intake investigateEvent_intake).bind fun _ =>
      respects_fallible _)

theorem runToStage_appends {config : HealthCheckConfig} {env : HealthCheckEnv} {alertId : ℕ}
    {target : HealthCheckStage} :
    Respects (OnDb Appends) (runToStage rt config env alertId target) := by
  unfold runToStage
  split
  · exact respects_pure _
  · refine triageRun_appends.bind fun _ => ?_
    split
    · exact respects_pure _
    · refine aggregationRun_appends.bind fun _ => ?_
      split
      · exact respects_pure _
      · exact investigateProbe_appends

theorem healthCheckRun_appends {config : HealthCheckConfig} {env : HealthCheckRunEnv}
    {scenarios : List HealthCheckScenario} {useLock : Bool} :
    Respects (OnDb Appends) (healthCheckRun rt config env scenarios useLock) := by
  have one (scenario : HealthCheckScenario) : Respects (OnDb Appends)
      (healthCheckRunOne rt config (env.items scenario.name) scenario) :=
    injectProbe_appends.bind fun _ => runToStage_appends
  unfold healthCheckRun
  split
  · exact respects_pure _
  · exact Loop.respects_run (fun _ _ _ _ hb => (one _).of_exec hb)
      fun _ _ _ _ hb => (one _).of_exec hb

theorem perform_appends (l : Label) {w : World} (h : AlertsStaged w.db) :
    Appends w.db (exec (perform rt l) w).2.db := by
  have run {α : Type} {m : Session α} (hm : Respects (OnDb Appends) m) :
      Appends w.db (exec m w).2.db := hm w
  cases l with
  | configure settings => exact run (respects_appends_of_intake (keeps_modify fun _ => rfl))
  | ingest env source maxBatches useLock =>
    exact run ((runForSource_respects fun _ => runBatch_appends).map _)
  | triage config env limit useLock => exact run (triageRun_appends.map _)
  | aggregate config env limit useLock => exact run (aggregationRun_appends.map _)
  | auditSample enabled env limit =>
    refine appends_of_intake ?_
    rw [perform, exec_map, auditSampleRun_db h]
  | investigate config env limit useLock =>
    exact run (respects_appends_of_intake
      ((investigationRun_respects fun _ => investigateEvent_intake).map _))
  | review config env limit useLock =>
    exact run (respects_appends_of_leaves (humanReviewRun_leaves.map _))
  | reply config env rawContent externalMsgId responder requestId =>
    exact run (respects_appends_of_leaves (handleReply_leaves.map _))
  | cancel commitFault requestId =>
    exact run (@respects_appends_of_leaves rt _ _ (cancelRequest_leaves.map _))
  | settle config env limit useLock =>
    exact run (respects_appends_of_leaves (assetPipelineRun_leaves.map _))
  | confirm now commitFault recordId action by_ =>
    exact run (respects_appends_of_leaves (decideDisposition_leaves.map _))
  | reject now commitFault recordId =>
    exact run (respects_appends_of_leaves (decideDisposition_leaves.map _))
  | healthCheck config env scenarios useLock => exact run (healthCheckRun_appends.map _)

theorem run_appends {ls : List Label} {w w' : World} (h : AlertsStaged w.db)
    (hrun : (system rt {}).run ls w = some w') : Appends w.db w'.db := by
  induction ls generalizing w with
  | nil =>
    obtain rfl := Option.some.inj hrun
    exact Std.Refl.refl w.db
  | cons l ls ih => exact Trans.trans (perform_appends l h) (ih (perform_stages l w h) hrun)

theorem Stage.stays {s s' : AlertStatus} {ts ts' : List TriageResult} {ls ls' : List EventAlert}
    {ms ms' : List AuditSample} (h : Stage (some s) ts ls ms) (h' : Stage (some s') ts' ls' ms')
    (hts : ts <+: ts') (hls : ls <+: ls') (hms : ms <+: ms') (hs : s ≠ .new) :
    ts' = ts ∧ ms' = ms ∧ (s = .archived → s' = .archived ∧ ls' = []) ∧
      (s = .triaged → s' = .triaged ∨ s' = .eventLinked) ∧
      (s = .eventLinked → s' = .eventLinked ∧ ls' = ls) := by
  have queued {r : RouteDecision} (ha : r.isArchive = true) (hq : r.isQueue = true) : False := by
    simp [isArchive_eq_not_isQueue, hq] at ha
  cases h with
  | new => exact absurd rfl hs
  | archived flags route sampled =>
    cases h' with
    | new => simp at hts
    | archived flags' route' sampled' =>
      obtain rfl : _ = _ := by simpa using hts
      have hms' := hms.eq_of_length (sampled.trans sampled'.symm)
      simp [hms']
    | triaged flags' route' =>
      obtain rfl : _ = _ := by simpa using hts
      exact (queued route route').elim
    | linked flags' route' =>
      obtain rfl : _ = _ := by simpa using hts
      exact (queued route route').elim
  | triaged flags route =>
    cases h' with
    | new => simp at hts
    | archived flags' route' sampled' =>
      obtain rfl : _ = _ := by simpa using hts
      exact (queued route' route).elim
    | triaged flags' route' =>
      obtain rfl : _ = _ := by simpa using hts
      simp
    | linked flags' route' =>
      obtain rfl : _ = _ := by simpa using hts
      simp
  | linked flags route =>
    cases h' with
    | new => simp at hts
    | archived flags' route' sampled' =>
      obtain rfl : _ = _ := by simpa using hts
      exact (queued route' route).elim
    | triaged flags' route' => simp at hls
    | linked flags' route' =>
      obtain rfl : _ = _ := by simpa using hts
      obtain rfl : _ = _ := by simpa using hls
      simp

/-- What a later database keeps of an alert that was triaged in an earlier one. -/
structure KeepsDecision (i : ℕ) (a a' : Alert) (db db' : Db) : Prop where
  content : a'.content = a.content
  results : resultsOf db'.triageResults i = resultsOf db.triageResults i
  samples : samplesOf db'.auditSamples i = samplesOf db.auditSamples i
  archived : a.status = .archived → a'.status = .archived ∧ linksOf db'.eventAlerts i = []
  triaged : a.status = .triaged → a'.status = .triaged ∨ a'.status = .eventLinked
  linked : a.status = .eventLinked →
    a'.status = .eventLinked ∧ linksOf db'.eventAlerts i = linksOf db.eventAlerts i

theorem Appends.alert {db db' : Db} (h : Appends db db') {i : ℕ} {a : Alert}
    (ha : db.alerts[i]? = some a) : ∃ a', db'.alerts[i]? = some a' ∧ a'.content = a.content := by
  have hcontent : (db.alerts.map Alert.content)[i]? = some a.content := by simp [ha]
  obtain ⟨hi, hget⟩ := List.getElem?_eq_some_iff.mp hcontent
  have hlater := (h.contents.getElem hi).symm.trans hget
  have hbound : i < db'.alerts.length := by
    simpa using hi.trans_le h.contents.length_le
  exact ⟨db'.alerts[i], List.getElem?_eq_getElem hbound, by simpa using hlater⟩

/--
An alert that has been triaged keeps its contents, its one triage result and its audit sample in
every run. An archived alert stays archived and never reaches an event, a queued one can only be
linked, and a linked one stays linked to the same event.
-/
theorem alert_decisions_are_final {w w' : World} {ls : List Label} {i : ℕ} {a : Alert}
    (h : (system rt {}).Reachable w) (ha : w.db.alerts[i]? = some a) (hstatus : a.status ≠ .new)
    (hrun : (system rt {}).run ls w = some w') :
    ∃ a', w'.db.alerts[i]? = some a' ∧ KeepsDecision i a a' w.db w'.db := by
  have hstaged := alertsStaged_of_reachable h
  have hstaged' := alertsStaged_of_reachable (h.run System.runsBy_true hrun)
  have happends := run_appends hstaged hrun
  obtain ⟨a', ha', hcontent⟩ := happends.alert ha
  have hstage := hstaged i
  have hstage' := hstaged' i
  rw [statusOf, ha, Option.map_some] at hstage
  rw [statusOf, ha', Option.map_some] at hstage'
  obtain ⟨hresults, hsamples, harchived, htriaged, hlinked⟩ := hstage.stays hstage'
    (happends.results.filter _) (happends.links.filter _) (happends.samples.filter _) hstatus
  exact ⟨a', ha', ⟨hcontent, hresults, hsamples, harchived, htriaged, hlinked⟩⟩

def triagedWorld : World := ((system (sampleRuntime .free []) {}).run triagedRun {}).getD {}

/-- The alert is aggregated, and another one comes in and is triaged. -/
def aggregatedRun : List Label :=
  [.aggregateAll (hours 1), .ingestAll (hours 2) [sampleAlert "a-2"], .triageAll (hours 2)]

theorem alert_decisions_are_final_aggregated :
    ∃ a w', triagedWorld.db.alerts[0]? = some a ∧ a.status = .triaged ∧
      (system (sampleRuntime .free []) {}).run aggregatedRun triagedWorld = some w' ∧
      ∃ a', w'.db.alerts[0]? = some a' ∧ KeepsDecision 0 a a' triagedWorld.db w'.db := by
  have hrun : (system (sampleRuntime .free []) {}).run triagedRun {} = some triagedWorld := rfl
  obtain ⟨a, ha, hstatus⟩ : ∃ a, triagedWorld.db.alerts[0]? = some a ∧ a.status = .triaged :=
    Option.map_eq_some_iff.mp (by decide +kernel : statusOf triagedWorld.db.alerts 0 = some .triaged)
  exact ⟨a, _, ha, hstatus, rfl, @alert_decisions_are_final _ _ _ aggregatedRun 0 a
    (System.reachable_of_run hrun) ha (by simp [hstatus]) rfl⟩

end

end Minsight

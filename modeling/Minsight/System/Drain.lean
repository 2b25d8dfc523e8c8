import Minsight.Foundation.Backlog
import Minsight.System.AlertLifecycle
import Minsight.System.BatchIsolation
import Minsight.System.Finality

/-! # The queues of alerts are worked off

A triage or an aggregation run that reports no error takes as many alerts off its queue as its
limit allows. So the queues run empty when nothing new arrives and enough such runs are made,
whatever else happens in between.
-/

namespace Minsight

open Tx Session Docket

/-- The alerts with a status. -/
def alertsAt (status : AlertStatus) (db : Db) : List ℕ :=
  (List.range db.alerts.length).filter fun i => statusOf db.alerts i == some status

variable {rt : Runtime} {db db' : Db} {i : ℕ} {status : AlertStatus}

theorem mem_alertsAt : i ∈ alertsAt status db ↔ statusOf db.alerts i = some status := by
  simp only [alertsAt, List.mem_filter, List.mem_range, beq_iff_eq, and_iff_right_iff_imp]
  intro h
  obtain ⟨a, ha, -⟩ := Option.map_eq_some_iff.mp h
  exact Rows.lt_of_getElem? ha

theorem alertsAt_nodup : (alertsAt status db).Nodup := List.nodup_range.filter _

theorem alertsAt_erase {f : Alert → Alert} (h : db'.alerts = db.alerts.modify i f)
    (hf : ∀ a, (f a).status ≠ status) : alertsAt status db' = (alertsAt status db).erase i := by
  rw [alertsAt_nodup.erase_eq_filter, alertsAt, alertsAt, List.filter_filter, h, List.length_modify]
  refine List.filter_congr fun j _ => ?_
  by_cases hij : i = j
  · subst hij
    rw [statusOf_modify_self]
    cases ha : db.alerts[i]? with
    | none => simp
    | some a => simpa using hf a
  · rw [statusOf_modify_ne hij]
    simp [Ne.symm hij]

def Shrinks (status : AlertStatus) (db db' : Db) : Prop :=
  (alertsAt status db').Sublist (alertsAt status db)

instance : Std.Refl (Shrinks status) where
  refl _ := List.Sublist.refl _

instance : IsTrans Db (Shrinks status) where
  trans _ _ _ h h' := h'.trans h

theorem shrinks_of_alerts (h : db'.alerts = db.alerts) : Shrinks status db db' := by
  rw [Shrinks, alertsAt, alertsAt, h]

theorem drains_batch {ι τ ρ : Type} {L : Loop Exn World ι τ ρ} {queue : World → List ℕ}
    {key : ι → ℕ} {before : ι → ι → Prop} [DecidableRel before] {items : List ι} {n : ℕ} {r : ρ}
    {w : World} (hs : L.Serves queue key) (hqueue : (queue w).Nodup)
    (hperm : (items.map key).Perm (queue w))
    (hf : L.failures (Rows.orderLimit before n items) w = []) :
    (queue (exec (L.run (Rows.orderLimit before n items) r) w).2).length =
      (queue w).length - n := by
  have hkeys : ((Rows.orderLimit before n items).map key).Nodup :=
    Rows.orderLimit_map_nodup key (hperm.nodup_iff.mpr hqueue)
  have hmem : ∀ i ∈ Rows.orderLimit before n items, key i ∈ queue w := fun i hi =>
    hperm.subset (List.mem_map_of_mem (Rows.mem_of_mem_orderLimit hi))
  have hlength := hs.length_run (r := r) hqueue hkeys hmem hf
  have hitems := hperm.length_eq
  rw [List.length_map] at hitems
  rw [Rows.orderLimit, List.length_take, List.length_insertionSort, hitems] at hlength
  rw [Rows.orderLimit]
  omega

theorem routedStatus_ne_new (route : RouteDecision) : routedStatus route ≠ .new := by
  cases route <;> decide

theorem Triaged.alertsAt_new {alert : AlertSnapshot} (h : Triaged alert db db') :
    alertsAt .new db' = (alertsAt .new db).erase alert.id := by
  obtain ⟨ctx, route, now, hagrees, -, -, -, hdb⟩ := h
  have halerts : db'.alerts = db.alerts.modify ctx.alert.id (routedAlert ctx route) := by
    have := congrArg Db.alerts hdb
    exact this
  rw [← hagrees.alert]
  exact alertsAt_erase halerts fun _ => routedStatus_ne_new route

theorem triageLoop_serves {config : TriageConfig} {env : TriageRunEnv} :
    (triageLoop rt config env).Serves (fun w => alertsAt .new w.db) AlertSnapshot.id where
  ok alert w u w' hb := by
    obtain ⟨ctx, w₁, hrun, hc⟩ := exec_bind_ok.mp hb
    obtain ⟨-, rfl⟩ := exec_fallible_ok.mp hc
    exact (pipelineRun_triaged hrun).alertsAt_new
  error _ _ _ _ _ := rfl

def Db.sourced (db : Db) : Bool := db.alerts.all fun a => a.dataSourceId < db.dataSources.length

theorem AlertsStaged.unresulted (h : AlertsStaged db) (hi : statusOf db.alerts i = some .new) :
    (db.triageResults.any fun t => t.alertId == i) = false := by
  have hstage := h i
  rw [hi] at hstage
  generalize hresults : resultsOf db.triageResults i = results at hstage
  generalize linksOf db.eventAlerts i = links at hstage
  generalize samplesOf db.auditSamples i = samples at hstage
  cases hstage
  rw [List.any_eq_false]
  exact List.filter_eq_nil_iff.mp hresults

def freshAlerts (db : Db) : List AlertSnapshot :=
  (db.alerts.select fun i a =>
    a.status == .new && !db.triageResults.any fun t => t.alertId == i).filterMap fun (i, a) =>
      (db.dataSources[a.dataSourceId]?).map fun source =>
        { id := i, dataSourceName := source.name, row := a : AlertSnapshot }

theorem freshAlerts_ids (hs : db.sourced = true) : (freshAlerts db).map (·.id) =
    (db.alerts.select fun i a =>
      a.status == .new && !db.triageResults.any fun t => t.alertId == i).map Prod.fst := by
  rw [freshAlerts, List.map_filterMap, ← List.filterMap_eq_map]
  refine List.filterMap_congr fun x hx => ?_
  obtain ⟨i, a⟩ := x
  have hmem := List.mem_of_getElem? (Rows.mem_select.mp hx).1
  have hlt := of_decide_eq_true (List.all_eq_true.mp hs a hmem)
  simp [List.getElem?_eq_getElem hlt]

theorem freshAlerts_perm (h : AlertsStaged db) (hs : db.sourced = true) :
    ((freshAlerts db).map (·.id)).Perm (alertsAt .new db) := by
  rw [freshAlerts_ids hs, List.perm_ext_iff_of_nodup (Rows.select_keys_nodup _ _) alertsAt_nodup]
  intro i
  rw [mem_alertsAt]
  constructor
  · intro hi
    obtain ⟨⟨i, a⟩, hmem, rfl⟩ := List.mem_map.mp hi
    obtain ⟨hrow, hnew⟩ := Rows.mem_select.mp hmem
    rw [Bool.and_eq_true, beq_iff_eq] at hnew
    rw [statusOf, hrow, Option.map_some, hnew.1]
  · intro hi
    obtain ⟨a, hrow, hnew⟩ := Option.map_eq_some_iff.mp hi
    refine List.mem_map.mpr ⟨(i, a), Rows.mem_select.mpr ⟨hrow, ?_⟩, rfl⟩
    rw [hnew, h.unresulted hi]
    rfl

theorem fetchNewAlerts_eq (tie : ℕ → ℕ) (n : ℕ) (db : Db) : fetchNewAlerts tie n db =
    Rows.orderLimit (Rows.ascending (·.row.occurredAt) fun x => tie x.id) n (freshAlerts db) :=
  rfl

/-- The run reports no error, and the source of every alert is there. -/
def triageCompletes (rt : Runtime) (config : TriageConfig) (env : TriageRunEnv) (limit : Option ℤ)
    (useLock : Bool) (w : World) : Bool :=
  w.db.sourced && match exec (triageRun rt config env limit useLock) w with
  | (.ok r, _) => r.errors.isEmpty && !r.skippedLock
  | (.error _, _) => false

section

variable {config : TriageConfig} {env : TriageRunEnv} {limit : Option ℤ} {useLock : Bool}

theorem triageRun_shrinks : Respects (OnDb (Shrinks .new)) (triageRun rt config env limit useLock) :=
  triageRun_respects fun alert db db' h => by
    rw [Shrinks, h.alertsAt_new]
    exact List.erase_sublist

theorem triageRun_idle {w : World} (h : alertsAt .new w.db = []) :
    (exec (triageRun rt config env limit useLock) w).2.db = w.db := by
  have hfetch : ∀ n, fetchNewAlerts env.tie n w.db = [] := by
    intro n
    refine List.eq_nil_iff_forall_not_mem.mpr fun alert hmem => ?_
    obtain ⟨⟨i, a⟩, hx, -⟩ := List.mem_filterMap.mp (Rows.mem_of_mem_orderLimit hmem)
    obtain ⟨hrow, hnew⟩ := Rows.mem_select.mp hx
    rw [Bool.and_eq_true, beq_iff_eq] at hnew
    have hi : i ∈ alertsAt .new w.db := mem_alertsAt.mpr (by rw [statusOf, hrow, ← hnew.1]; rfl)
    rw [h] at hi
    cases hi
  unfold triageRun sqlLimit
  split
  · rfl
  · rw [exec_setRedis_bind]
    split
    · rfl
    · rw [exec_bind_pure]
      cases env.fetchFault with
      | some e => rfl
      | none =>
        rw [fallible, exec_bind_pure, exec_query_bind, hfetch]
        rfl

theorem triageRun_drains {w : World} (h : AlertsStaged w.db)
    (hc : triageCompletes rt config env limit useLock w = true) :
    (alertsAt .new (exec (triageRun rt config env limit useLock) w).2.db).length =
      (alertsAt .new w.db).length - (limitOr limit config.batchSize).toNat := by
  obtain ⟨hsourced, hc⟩ := Bool.and_eq_true_iff.mp hc
  split at hc
  · rename_i r w' hrun
    obtain ⟨herrors, hskipped⟩ := Bool.and_eq_true_iff.mp hc
    rw [hrun]
    unfold triageRun at hrun
    split at hrun
    · obtain ⟨rfl, rfl⟩ : _ ∧ _ := by simpa using hrun
      cases hskipped
    · rw [exec_setRedis_bind] at hrun
      obtain ⟨n, w₁, hlimit, hrun⟩ := exec_bind_ok.mp hrun
      obtain ⟨-, rfl, rfl⟩ := exec_sqlLimit_ok.mp hlimit
      rw [exec_fallible_bind_ok, exec_query_bind, fetchNewAlerts_eq] at hrun
      have hfailures := Loop.failures_of_errors (fun r : TriageRunResult => r.errors.length)
        (fun _ _ _ => rfl) (fun _ _ _ => by simp [triageLoop]) hrun.2 (by simpa using herrors)
      have hdrains := drains_batch (r := {}) (w := { w with out := { w.out with llmAssistCalls := 0 } })
        triageLoop_serves alertsAt_nodup (freshAlerts_perm h hsourced) hfailures
      rw [hrun.2] at hdrains
      exact hdrains
  · cases hc

end

theorem Linked.alertsAt {config : AggregationConfig} {tie : ℕ → ℕ} {item : PendingAlert}
    (h : Linked rt config tie item db db') (hstatus : status ≠ .eventLinked) :
    alertsAt status db' = (alertsAt status db).erase item.alertId := by
  obtain ⟨dims, eventId, events, now, -, -, -, rfl⟩ := h
  exact alertsAt_erase rfl fun _ => hstatus.symm

theorem aggregationLoop_serves {config : AggregationConfig} {env : AggregationRunEnv} :
    (aggregationLoop rt config env).Serves (fun w => alertsAt .triaged w.db)
      PendingAlert.alertId where
  ok item w created w' hb := by
    obtain ⟨created, w₁, hone, hc⟩ := exec_bind_ok.mp hb
    simp only [exec_fallible_bind_ok, exec_pure, Prod.mk.injEq] at hc
    obtain ⟨-, -, rfl⟩ := hc
    exact (aggregateOne_linked hone).alertsAt (by simp)
  error _ _ _ _ _ := rfl

def pendingAlerts (db : Db) : List PendingAlert :=
  (db.alerts.select fun i a =>
    a.status == .triaged && !db.eventAlerts.any fun l => l.alertId == i).flatMap fun (i, a) =>
      (db.triageResults.filter fun t => t.alertId == i && t.routeDecision.isQueue).map fun t =>
        { alertId := i, alert := a, triage := t : PendingAlert }

theorem fetchPending_eq (tie : ℕ → ℕ) (n : ℕ) (db : Db) : fetchPending tie n db =
    Rows.orderLimit (Rows.ascending (·.alert.occurredAt) fun x => tie x.alertId) n
      (pendingAlerts db) :=
  rfl

theorem AlertsStaged.queued (h : AlertsStaged db) (hi : statusOf db.alerts i = some .triaged) :
    (db.eventAlerts.any fun l => l.alertId == i) = false ∧ ∃ t,
      (db.triageResults.filter fun t => t.alertId == i && t.routeDecision.isQueue) = [t] := by
  have hstage := h i
  rw [hi] at hstage
  generalize hresults : resultsOf db.triageResults i = results at hstage
  generalize hlinks : linksOf db.eventAlerts i = links at hstage
  generalize samplesOf db.auditSamples i = samples at hstage
  cases hstage with
  | @triaged t flags route =>
    refine ⟨List.any_eq_false.mpr (List.filter_eq_nil_iff.mp hlinks), t, ?_⟩
    have hboth : (fun t : TriageResult => t.alertId == i && t.routeDecision.isQueue) =
        fun t => t.routeDecision.isQueue && t.alertId == i := by
      funext t
      exact Bool.and_comm _ _
    rw [hboth, ← List.filter_filter]
    change (resultsOf db.triageResults i).filter _ = _
    rw [hresults, List.filter_singleton, route]
    rfl

theorem pendingAlerts_ids (h : AlertsStaged db) : (pendingAlerts db).map (·.alertId) =
    (db.alerts.select fun i a =>
      a.status == .triaged && !db.eventAlerts.any fun l => l.alertId == i).map Prod.fst := by
  rw [pendingAlerts, List.map_flatMap, List.map_eq_flatMap]
  refine List.flatMap_congr fun x hx => ?_
  obtain ⟨i, a⟩ := x
  obtain ⟨hrow, hselected⟩ := Rows.mem_select.mp hx
  rw [Bool.and_eq_true, beq_iff_eq] at hselected
  have hi : statusOf db.alerts i = some .triaged := by rw [statusOf, hrow, ← hselected.1]; rfl
  obtain ⟨-, t, ht⟩ := h.queued hi
  dsimp only
  rw [ht]
  rfl

theorem pendingAlerts_perm (h : AlertsStaged db) :
    ((pendingAlerts db).map (·.alertId)).Perm (alertsAt .triaged db) := by
  rw [pendingAlerts_ids h, List.perm_ext_iff_of_nodup (Rows.select_keys_nodup _ _) alertsAt_nodup]
  intro i
  rw [mem_alertsAt]
  constructor
  · intro hi
    obtain ⟨⟨i, a⟩, hmem, rfl⟩ := List.mem_map.mp hi
    obtain ⟨hrow, htriaged⟩ := Rows.mem_select.mp hmem
    rw [Bool.and_eq_true, beq_iff_eq] at htriaged
    rw [statusOf, hrow, Option.map_some, htriaged.1]
  · intro hi
    obtain ⟨a, hrow, htriaged⟩ := Option.map_eq_some_iff.mp hi
    refine List.mem_map.mpr ⟨(i, a), Rows.mem_select.mpr ⟨hrow, ?_⟩, rfl⟩
    rw [htriaged, (h.queued hi).1]
    rfl

def aggregationCompletes (rt : Runtime) (config : AggregationConfig) (env : AggregationRunEnv)
    (limit : Option ℤ) (useLock : Bool) (w : World) : Bool :=
  match exec (aggregationRun rt config env limit useLock) w with
  | (.ok r, _) => r.errors.isEmpty && !r.skippedLock
  | (.error _, _) => false

section

variable {config : AggregationConfig} {env : AggregationRunEnv} {limit : Option ℤ} {useLock : Bool}

theorem aggregationRun_shrinks (hstatus : status ≠ .eventLinked) :
    Respects (OnDb (Shrinks status)) (aggregationRun rt config env limit useLock) :=
  aggregationRun_respects fun item db db' h => by
    rw [Shrinks, h.alertsAt hstatus]
    exact List.erase_sublist

theorem aggregationRun_drains {w : World} (h : AlertsStaged w.db)
    (hc : aggregationCompletes rt config env limit useLock w = true) :
    (alertsAt .triaged (exec (aggregationRun rt config env limit useLock) w).2.db).length =
      (alertsAt .triaged w.db).length - (limitOr limit config.batchSize).toNat := by
  unfold aggregationCompletes at hc
  split at hc
  · rename_i r w' hrun
    obtain ⟨herrors, hskipped⟩ := Bool.and_eq_true_iff.mp hc
    rw [hrun]
    unfold aggregationRun at hrun
    split at hrun
    · obtain ⟨rfl, rfl⟩ : _ ∧ _ := by simpa using hrun
      cases hskipped
    · obtain ⟨n, w₁, hlimit, hrun⟩ := exec_bind_ok.mp hrun
      obtain ⟨-, rfl, rfl⟩ := exec_sqlLimit_ok.mp hlimit
      rw [exec_fallible_bind_ok, exec_query_bind, fetchPending_eq] at hrun
      have hfailures := Loop.failures_of_errors
        (fun r : AggregationRunResult => r.errors.length) (fun _ _ _ => rfl)
        (fun _ _ _ => by simp [aggregationLoop]) hrun.2 (by simpa using herrors)
      have hdrains := drains_batch (r := {}) aggregationLoop_serves alertsAt_nodup
        (pendingAlerts_perm h) hfailures
      rw [hrun.2] at hdrains
      exact hdrains
  · cases hc

end

/-- The events that an investigation run could pick. -/
def waitingEvents (db : Db) : List ℕ :=
  (List.range db.events.length).filter fun e => (db.events[e]?).any (isPickable db e)

theorem waitingEvents_nodup : (waitingEvents db).Nodup := List.nodup_range.filter _

theorem any_isPickable (t : Time) {e : ℕ} : (db.events[e]?).any (isPickable db e) = true ↔
    ((db.docket t).file e).Pickable ∧ eventIsProbe db e = false := by
  cases hrow : db.events[e]? with
  | none =>
    have hno : ¬((db.docket t).file e).Pickable := fun h => by
      have hqueued : (db.events.map (·.status))[e]? = some .pendingReview := h.queued
      rw [List.getElem?_map, hrow] at hqueued
      cases hqueued
    simp [hno]
  | some event => rw [Option.any_some, isPickable_iff hrow]

theorem mem_waitingEvents (t : Time) {e : ℕ} : e ∈ waitingEvents db ↔
    ((db.docket t).file e).Pickable ∧ eventIsProbe db e = false := by
  rw [waitingEvents, List.mem_filter, List.mem_range, any_isPickable t]
  refine and_iff_right_of_imp fun h => ?_
  have hqueued : (db.events.map (·.status))[e]? = some .pendingReview := h.1.queued
  rw [← List.length_map (fun event : Event => event.status)]
  exact Rows.lt_of_getElem? hqueued

theorem waitingEvents_erase {e : ℕ} {w w' : World} (hserved : Served e w.docket w'.docket)
    (hprobe : ∀ e, eventIsProbe w'.db e = eventIsProbe w.db e) :
    waitingEvents w'.db = (waitingEvents w.db).erase e := by
  have hlength : w'.db.events.length = w.db.events.length := by
    have h := hserved.length
    rwa [World.docket, World.docket, Db.docket, Db.docket, List.length_map, List.length_map] at h
  rw [waitingEvents_nodup.erase_eq_filter, waitingEvents, waitingEvents, List.filter_filter,
    hlength]
  refine List.filter_congr fun e' _ => Bool.eq_iff_iff.mpr ?_
  rw [Bool.and_eq_true, any_isPickable w'.out.clock, any_isPickable w.out.clock, hprobe]
  by_cases hne : e = e'
  · subst hne
    have hleft : ¬(w'.docket.file e).Pickable := fun h => hserved.left h.queued
    simp [World.docket] at hleft ⊢
    exact fun h => absurd h hleft
  · have hfile := hserved.others e' hne
    rw [World.docket, World.docket] at hfile
    simp [hfile, Ne.symm hne]

theorem investigationLoop_serves {config : InvestigationConfig} {env : InvestigationRunEnv} :
    (investigationLoop rt config env).Serves (fun w => waitingEvents w.db) id where
  ok e w u w' hb := by
    obtain ⟨-, hserved⟩ := investigateAndCount_turns (p := fun _ => True) trivial hb
    have hintake : Respects (Keeps Db.intake) (investigateAndCount rt config (env.items e) env.tie e) :=
      investigateAndCount_respects investigateEvent_intake
    exact waitingEvents_erase hserved (eventIsProbe_of_intake (hintake.of_exec hb))
  error _ _ _ _ _ := rfl

def investigationCompletes (rt : Runtime) (config : InvestigationConfig) (env : InvestigationRunEnv)
    (limit : Option ℤ) (useLock : Bool) (w : World) : Bool :=
  match exec (investigationRun rt config env limit useLock) w with
  | (.ok r, _) => r.errors.isEmpty && !r.skippedLock && !r.skippedBudget
  | (.error _, _) => false

/-- How many events a run takes at most, by its limit and by what is left of the daily budget. -/
def investigationLimit (rt : Runtime) (config : InvestigationConfig) (env : InvestigationRunEnv)
    (limit : Option ℤ) (w : World) : ℕ :=
  match exec (budgetRemaining rt env.budgetAt config.dailyEventBudget) w with
  | (.ok remaining, _) => (min (limitOr limit config.batchSize) remaining).toNat
  | (.error _, _) => 0

section

variable {config : InvestigationConfig} {env : InvestigationRunEnv} {limit : Option ℤ}
  {useLock : Bool}

theorem waitingEvents_perm :
    ((db.events.select (isPickable db)).map Prod.fst).Perm (waitingEvents db) := by
  rw [List.perm_ext_iff_of_nodup (Rows.select_keys_nodup _ _) waitingEvents_nodup]
  intro e
  rw [waitingEvents, List.mem_filter, List.mem_range]
  constructor
  · intro h
    obtain ⟨⟨e, event⟩, hmem, rfl⟩ := List.mem_map.mp h
    obtain ⟨hrow, hpick⟩ := Rows.mem_select.mp hmem
    refine ⟨Rows.lt_of_getElem? hrow, ?_⟩
    rw [hrow]
    exact hpick
  · rintro ⟨hlt, hany⟩
    have hrow := List.getElem?_eq_getElem hlt
    rw [hrow] at hany
    exact List.mem_map.mpr ⟨(e, db.events[e]), Rows.mem_select.mpr ⟨hrow, hany⟩, rfl⟩

theorem pickEvents_subset {tie : ℕ → ℕ} {n e : ℕ} (h : e ∈ pickEvents tie n db) :
    e ∈ waitingEvents db := by
  obtain ⟨x, hmem, rfl⟩ := List.mem_map.mp h
  exact waitingEvents_perm.subset (List.mem_map_of_mem (Rows.mem_of_mem_orderLimit hmem))

theorem pickEvents_length {tie : ℕ → ℕ} {n : ℕ} :
    (pickEvents tie n db).length = min n (waitingEvents db).length := by
  rw [pickEvents, List.length_map, Rows.orderLimit, List.length_take, List.length_insertionSort,
    ← waitingEvents_perm.length_eq, List.length_map]

variable (rt config env) in
theorem exec_budgetRemaining (w : World) : ∃ remaining clock,
    exec (budgetRemaining rt env.budgetAt config.dailyEventBudget) w =
      (.ok remaining, { w with out := { w.out with clock := clock } }) :=
  ⟨_, _, rfl⟩

theorem investigationRun_drains {w : World}
    (hc : investigationCompletes rt config env limit useLock w = true) :
    (waitingEvents (exec (investigationRun rt config env limit useLock) w).2.db).length =
      (waitingEvents w.db).length - investigationLimit rt config env limit w := by
  obtain ⟨remaining, clock, hbudget⟩ := exec_budgetRemaining rt config env w
  unfold investigationCompletes at hc
  unfold investigationLimit
  rw [hbudget]
  dsimp only
  split at hc
  · rename_i r w' hrun
    obtain ⟨hc, hexhausted⟩ := Bool.and_eq_true_iff.mp hc
    obtain ⟨herrors, hskipped⟩ := Bool.and_eq_true_iff.mp hc
    rw [hrun]
    unfold investigationRun at hrun
    split at hrun
    · obtain ⟨rfl, rfl⟩ : _ ∧ _ := by simpa using hrun
      cases hskipped
    · rw [exec_bind, hbudget] at hrun
      dsimp only at hrun
      split at hrun
      · obtain ⟨rfl, rfl⟩ : _ ∧ _ := by simpa using hrun
        cases hexhausted
      · obtain ⟨n, w₁, hlimit, hrun⟩ := exec_bind_ok.mp hrun
        obtain ⟨-, rfl, rfl⟩ := exec_sqlLimit_ok.mp hlimit
        rw [exec_fallible_bind_ok, exec_query_bind] at hrun
        have hfailures := Loop.failures_of_errors
          (fun r : InvestigationRunResult => r.errors.length) (fun _ _ _ => rfl)
          (fun _ _ _ => by simp [investigationLoop]) hrun.2 (by simpa using herrors)
        have hlength := investigationLoop_serves.length_run (r := {}) waitingEvents_nodup
          (by rw [List.map_id]; exact pickEvents_nodup _ _ _) (fun e he => pickEvents_subset he)
          hfailures
        rw [hrun.2, pickEvents_length] at hlength
        change (waitingEvents w'.db).length + min (min (limitOr limit config.batchSize)
          remaining).toNat (waitingEvents w.db).length = (waitingEvents w.db).length at hlength
        change (waitingEvents w'.db).length = _
        omega
  · cases hc

end

theorem eventIsProbe_mono (hk : KeepsLinks db db') {e : ℕ} (h : eventIsProbe db' e = false) :
    eventIsProbe db e = false := by
  rw [eventIsProbe, List.any_eq_false] at h ⊢
  intro l hl
  specialize h l (hk.links ▸ hl)
  rw [← List.getElem?_map] at h ⊢
  cases hrow : db.flags[l.alertId]? with
  | none =>
    rw [Db.flags] at hrow
    simp [hrow]
  | some flag =>
    have hflag := flags_eq_of_grows hk.flags (Rows.lt_of_getElem? hrow)
    rw [Db.flags, Db.flags] at hflag
    rw [← hflag]
    exact h

theorem Steps.pickable {k : ClockKind} {A : Act → Prop} {d d' : Docket} {e : ℕ}
    (h : Steps k A d d') (hA : ¬A .opened) (ht : d.Taken) (hpick : (d'.file e).Pickable) :
    (d.file e).Pickable := by
  refine (h.rel (R := fun d d' => d.Taken → d'.Taken ∧ ((d'.file e).Pickable →
    (d.file e).Pickable)) (fun _ ht => ⟨ht, id⟩) (fun d₁ d₂ d₃ h h' ht => ?_)
    (fun a d₁ d₂ ha hs ht => ?_) ht).2 hpick
  · obtain ⟨ht₂, hback⟩ := h ht
    exact ⟨(h' ht₂).1, fun hpick => hback ((h' ht₂).2 hpick)⟩
  · refine ⟨hs.taken ht, hs.pickable ?_ ht⟩
    rintro rfl
    rcases ha with ha | ha
    · cases ha
    · exact hA ha

/-- The calls that add alerts. -/
def Label.addsAlerts : Label → Bool
  | .ingest .. | .healthCheck .. => true
  | _ => false

/-- How many alerts a call takes off the queue of triage, if there are so many. -/
def Label.triages (rt : Runtime) : Label → World → ℕ
  | .triage config env limit useLock, w =>
    if triageCompletes rt config env limit useLock w then (limitOr limit config.batchSize).toNat
    else 0
  | _, _ => 0

/-- How many alerts a call takes off the queue of aggregation, if there are so many. -/
def Label.links (rt : Runtime) : Label → World → ℕ
  | .aggregate config env limit useLock, w =>
    if aggregationCompletes rt config env limit useLock w then
      (limitOr limit config.batchSize).toNat
    else 0
  | _, _ => 0

theorem perform_new {l : Label} {w : World} (hl : l.addsAlerts = false) (h : AlertsStaged w.db) :
    (alertsAt .new (exec (perform rt l) w).2.db).length ≤
      (alertsAt .new w.db).length - l.triages rt w := by
  have other (hs : OnDb (Shrinks .new) w (exec (perform rt l) w).2) (ht : l.triages rt w = 0) :
      (alertsAt .new (exec (perform rt l) w).2.db).length ≤
        (alertsAt .new w.db).length - l.triages rt w := by
    rw [ht]
    exact hs.length_le
  cases hmoves : l.movesAlerts with
  | false =>
    have halerts : (exec (perform rt l) w).2.db.alerts = w.db.alerts :=
      (Prod.mk.inj (perform_keepsAlerts hmoves w)).1
    refine other (shrinks_of_alerts halerts) ?_
    cases l with
    | triage => cases hmoves
    | _ => rfl
  | true =>
    cases l with
    | triage config env limit useLock =>
      change _ ≤ _ - if triageCompletes rt config env limit useLock w then _ else 0
      rw [perform, exec_map]
      split
      · exact (triageRun_drains h ‹_›).le
      · exact (triageRun_shrinks w).length_le
    | aggregate config env limit useLock =>
      refine other ?_ rfl
      rw [perform, exec_map]
      exact aggregationRun_shrinks (by decide) w
    | ingest => cases hl
    | healthCheck => cases hl
    | _ => cases hmoves

theorem perform_triaged {l : Label} {w : World} (hl : l.addsAlerts = false)
    (h : AlertsStaged w.db) (hnew : alertsAt .new w.db = []) :
    (alertsAt .triaged (exec (perform rt l) w).2.db).length ≤
      (alertsAt .triaged w.db).length - l.links rt w := by
  have other (hs : (exec (perform rt l) w).2.db.alerts = w.db.alerts) (ht : l.links rt w = 0) :
      (alertsAt .triaged (exec (perform rt l) w).2.db).length ≤
        (alertsAt .triaged w.db).length - l.links rt w := by
    rw [ht]
    exact (shrinks_of_alerts hs).length_le
  cases hmoves : l.movesAlerts with
  | false =>
    refine other (Prod.mk.inj (perform_keepsAlerts hmoves w)).1 ?_
    cases l with
    | aggregate => cases hmoves
    | _ => rfl
  | true =>
    cases l with
    | triage config env limit useLock =>
      refine other ?_ rfl
      rw [perform, exec_map, triageRun_idle hnew]
    | aggregate config env limit useLock =>
      change _ ≤ _ - if aggregationCompletes rt config env limit useLock w then _ else 0
      rw [perform, exec_map]
      split
      · exact (aggregationRun_drains h ‹_›).le
      · exact (aggregationRun_shrinks (by decide) w).length_le
    | ingest => cases hl
    | healthCheck => cases hl
    | _ => cases hmoves

/-- The calls that open events. -/
def Label.opensEvents : Label → Bool
  | .aggregate .. | .healthCheck .. => true
  | _ => false

/-- How many events a call takes off the queue of investigation, if there are so many. -/
def Label.investigates (rt : Runtime) : Label → World → ℕ
  | .investigate config env limit useLock, w =>
    if investigationCompletes rt config env limit useLock w then
      investigationLimit rt config env limit w
    else 0
  | _, _ => 0

theorem perform_waiting {l : Label} {w : World} (hl : l.opensEvents = false)
    (ht : w.docket.Taken) : (waitingEvents (exec (perform rt l) w).2.db).length ≤
      (waitingEvents w.db).length - l.investigates rt w := by
  have hkeeps : KeepsLinks w.db (exec (perform rt l) w).2.db := by
    refine perform_keepsLinks ?_ ?_ w
    · cases l with
      | healthCheck => cases hl
      | _ => rfl
    · rintro config env limit useLock rfl
      cases hl
  have hacts : ¬l.acts .opened := by
    cases l with
    | aggregate => cases hl
    | healthCheck => cases hl
    | _ => simp [Label.acts]
  have hsubset : waitingEvents (exec (perform rt l) w).2.db ⊆ waitingEvents w.db := by
    intro e he
    obtain ⟨hpick, hprobe⟩ := (mem_waitingEvents (exec (perform rt l) w).2.out.clock).mp he
    exact (mem_waitingEvents w.out.clock).mpr
      ⟨Steps.pickable (perform_simulates l w) hacts ht hpick, eventIsProbe_mono hkeeps hprobe⟩
  have hlength := (List.subperm_of_subset waitingEvents_nodup hsubset).length_le
  cases l with
  | investigate config env limit useLock =>
    change _ ≤ _ - if investigationCompletes rt config env limit useLock w then _ else 0
    split
    · rw [perform, exec_map]
      exact (investigationRun_drains ‹_›).le
    · exact hlength
  | _ => exact hlength

theorem statusOf_settled (h : AlertsStaged db) (hnew : alertsAt .new db = [])
    (htriaged : alertsAt .triaged db = []) (hi : statusOf db.alerts i = some status) :
    status = .archived ∨ status = .eventLinked := by
  have hstage := h i
  rw [hi] at hstage
  generalize resultsOf db.triageResults i = results at hstage
  generalize linksOf db.eventAlerts i = links at hstage
  generalize samplesOf db.auditSamples i = samples at hstage
  have hnone : ∀ s, alertsAt s db = [] → status ≠ s := by
    rintro s hs rfl
    exact List.not_mem_nil (hs ▸ mem_alertsAt.mpr hi)
  cases hstage with
  | new => exact absurd rfl (hnone _ hnew)
  | archived => exact .inl rfl
  | triaged => exact absurd rfl (hnone _ htriaged)
  | linked => exact .inr rfl

/--
From every state reached, while nothing arrives: once triage runs without errors have been made
for all new alerts, and then aggregation runs without errors for all that wait for an event, every
alert is archived or linked to an event, whatever other calls are made in between.
-/
theorem pipeline_drains {ls ls' : List Label} {w w₁ w₂ : World} (h : (system rt {}).Reachable w)
    (hls : ∀ l ∈ ls ++ ls', l.addsAlerts = false) (hrun : (system rt {}).run ls w = some w₁)
    (hrun' : (system rt {}).run ls' w₁ = some w₂)
    (htriage : (alertsAt .new w.db).length ≤ (system rt {}).worth (Label.triages rt) ls w)
    (hlink : (alertsAt .triaged w₁.db).length ≤ (system rt {}).worth (Label.links rt) ls' w₁) :
    ∀ i status, statusOf w₂.db.alerts i = some status →
      status = .archived ∨ status = .eventLinked := by
  obtain ⟨hs₁, hnew⟩ := System.le_sub_worth (fun w => (alertsAt .new w.db).length)
    (Label.triages rt) (fun w => AlertsStaged w.db) (C := fun _ l => l.addsAlerts = false)
    (fun l w w' hs hl hstep => by
      obtain rfl := Option.some.inj hstep
      exact ⟨perform_stages l w hs, perform_new hl hs⟩)
    (alertsStaged_of_reachable h)
    (System.runsBy_of_labels fun l hl => hls l (List.mem_append_left _ hl)) hrun
  rw [Nat.sub_eq_zero_of_le htriage, Nat.le_zero, List.length_eq_zero_iff] at hnew
  obtain ⟨⟨hs₂, hnew₂⟩, htriaged⟩ := System.le_sub_worth
    (fun w => (alertsAt .triaged w.db).length) (Label.links rt)
    (fun w => AlertsStaged w.db ∧ alertsAt .new w.db = []) (C := fun _ l => l.addsAlerts = false)
    (fun l w w' hs hl hstep => by
      obtain rfl := Option.some.inj hstep
      have hnew := @perform_new rt l w hl hs.1
      rw [hs.2, List.length_nil, Nat.zero_sub, Nat.le_zero, List.length_eq_zero_iff] at hnew
      exact ⟨⟨perform_stages l w hs.1, hnew⟩, perform_triaged hl hs.1 hs.2⟩)
    ⟨hs₁, hnew⟩ (System.runsBy_of_labels fun l hl => hls l (List.mem_append_right _ hl)) hrun'
  rw [Nat.sub_eq_zero_of_le hlink, Nat.le_zero, List.length_eq_zero_iff] at htriaged
  exact fun i status => statusOf_settled hs₂ hnew₂ htriaged

/--
From every state reached, while no event is opened: once investigation runs without errors have
been made with room for all events that wait, no event can be picked any more, whatever other
calls are made in between.
-/
theorem investigations_drain {ls : List Label} {w w' : World} (h : (system rt {}).Reachable w)
    (hls : ∀ l ∈ ls, l.opensEvents = false) (hrun : (system rt {}).run ls w = some w')
    (hinvestigate : (waitingEvents w.db).length ≤
      (system rt {}).worth (Label.investigates rt) ls w) :
    ∀ tie n, pickEvents tie n w'.db = [] := by
  obtain ⟨-, hwaiting⟩ := System.le_sub_worth (fun w => (waitingEvents w.db).length)
    (Label.investigates rt) (fun w => w.docket.Taken) (C := fun _ l => l.opensEvents = false)
    (fun l w w' ht hl hstep => by
      obtain rfl := Option.some.inj hstep
      exact ⟨Steps.invariant (fun _ _ _ _ => Step.taken) (perform_simulates l w) ht,
        perform_waiting hl ht⟩)
    (taken_of_reachable h) (System.runsBy_of_labels hls) hrun
  intro tie n
  rw [← List.length_eq_zero_iff, pickEvents_length]
  omega

def openedRun : List Label := investigatedRun.take 4

def openedWorld : World :=
  ((system (sampleRuntime .increasing []) {}).run openedRun {}).getD {}

/-- A run takes the event, after the queues were looked at without one. -/
def takenRun : List Label :=
  [.reviewAll (hours 2), .triageAll (hours 2), .investigateAll (hours 3) (.error .external)]

theorem investigations_drain_opened : waitingEvents openedWorld.db = [0] ∧
    ∃ w', (system (sampleRuntime .increasing []) {}).run takenRun openedWorld = some w' ∧
      ∀ tie n, pickEvents tie n w'.db = [] := by
  have hrun : (system (sampleRuntime .increasing []) {}).run openedRun {} = some openedWorld := rfl
  exact ⟨by decide +kernel, _, rfl, @investigations_drain _ takenRun _ _
    (System.reachable_of_run hrun) (by decide) rfl (by decide +kernel)⟩

def triageTwice : List Label :=
  [.triage {} { items := fun _ => { dedupNow := hours 1 } } (some 1) true, .reviewAll (hours 1),
    .triage {} { items := fun _ => { dedupNow := hours 1 } } (some 1) true]

theorem pipeline_drains_ingested : ∃ w₁ w₂,
    (system (sampleRuntime .increasing []) {}).run triageTwice ingestedWorld = some w₁ ∧
    (system (sampleRuntime .increasing []) {}).run [.aggregateAll (hours 2)] w₁ = some w₂ ∧
    w₂.db.alerts.length = 2 ∧ ∀ i status, statusOf w₂.db.alerts i = some status →
      status = .archived ∨ status = .eventLinked := by
  have hrun : (system (sampleRuntime .increasing []) {}).run ingestedRun {} =
    some ingestedWorld := rfl
  exact ⟨_, _, rfl, rfl, by decide +kernel, @pipeline_drains _ triageTwice
    [.aggregateAll (hours 2)] _ _ _ (System.reachable_of_run hrun) (by decide) rfl rfl
    (by decide +kernel) (by decide +kernel)⟩

end Minsight

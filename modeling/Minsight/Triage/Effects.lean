import Minsight.Model.Footprint
import Minsight.Triage.Service

/-! # What triage does

Until an alert is persisted the handlers touch only its dedup group. What is persisted
has a route that agrees with the handler that chose it.
-/

namespace Minsight

open Tx Session

structure RouteAgrees (alert : AlertSnapshot) (ctx : TriageContext) : Prop where
  alert : ctx.alert = alert
  dedup : ctx.dedupHit = true ↔ ctx.routeDecision = some .archiveDedup
  whitelist : ctx.whitelistRuleId.isSome ↔ ctx.routeDecision = some .archiveWhitelist

/-- Before the router, a route has been chosen exactly when the pipeline was cut short. -/
structure Unrouted (alert : AlertSnapshot) (ctx : TriageContext) : Prop
    extends RouteAgrees alert ctx where
  short : ctx.shortCircuit = ctx.routeDecision.isSome

section

variable {rt : Runtime} {config : TriageConfig} {env : TriageEnv} {alert : AlertSnapshot}
  {ctx : TriageContext}

theorem dedupHandle_returns :
    Returns (Unrouted alert) (dedupHandle rt config env { alert := alert }) := by
  refine returns_bind fun now => returns_bind fun _ => returns_bind fun groups => ?_
  have rest (gid : ℕ) (b : Bool) : Unrouted alert
      { ({ alert := alert } : TriageContext) with dedupGroupId := some gid, isRepresentative := b } :=
    ⟨⟨rfl, by simp, by simp⟩, rfl⟩
  split
  · exact returns_bind fun _ => returns_pure (rest _ _)
  · split
    · exact returns_bind fun _ => returns_pure ⟨⟨rfl, by simp, by simp⟩, rfl⟩
    · exact returns_bind fun _ => returns_pure (rest _ _)

theorem whitelistHandle_returns (h : Unrouted alert ctx) :
    Returns (Unrouted alert) (whitelistHandle rt env ctx) := by
  unfold whitelistHandle
  split
  · exact returns_pure h
  · rename_i hs
    refine returns_bind fun now => returns_bind fun _ => returns_bind fun rules => ?_
    split
    · exact returns_raise _
    · exact returns_pure h
    · have hr : ctx.routeDecision = none := by
        have := h.short
        simpa [hs] using this
      have hd : ctx.dedupHit = false := by
        have := h.dedup
        simpa [hr] using this
      exact returns_pure ⟨⟨h.alert, by simp [hd], by simp⟩, rfl⟩

theorem profileHintHandle_returns (h : Unrouted alert ctx) :
    Returns (Unrouted alert) (profileHintHandle rt config env ctx) := by
  unfold profileHintHandle
  split
  · exact returns_pure h
  · exact returns_bind fun _ => returns_bind fun _ => returns_bind fun _ =>
      returns_pure ⟨⟨h.alert, h.dedup, h.whitelist⟩, h.short⟩

theorem ruleScoreHandle_returns (h : Unrouted alert ctx) :
    Returns (Unrouted alert) (ruleScoreHandle rt config env ctx) := by
  unfold ruleScoreHandle
  split
  · exact returns_pure h
  · exact returns_bind fun _ => returns_bind fun _ => returns_bind fun _ =>
      returns_pure ⟨⟨h.alert, h.dedup, h.whitelist⟩, h.short⟩

theorem llmAssistHandle_returns (h : Unrouted alert ctx) :
    Returns (Unrouted alert) (llmAssistHandle rt config env ctx) := by
  refine returns_bind fun calls => ?_
  split
  · exact returns_pure h
  · split
    · exact returns_pure h
    · split
      · exact returns_pure h
      · refine returns_bind fun score => returns_pure ?_
        cases score with
        | none => exact ⟨⟨h.alert, h.dedup, h.whitelist⟩, h.short⟩
        | some q => exact ⟨⟨h.alert, h.dedup, h.whitelist⟩, h.short⟩

theorem routeHandle_agrees (h : Unrouted alert ctx) :
    RouteAgrees alert (routeHandle config env ctx) := by
  unfold routeHandle
  split
  · exact h.toRouteAgrees
  · rename_i hs
    have hr : ctx.routeDecision = none := by simpa using hs
    have hd : ctx.dedupHit = false := by
      have := h.dedup
      simpa [hr] using this
    have hw : ctx.whitelistRuleId.isSome = false := by
      have := h.whitelist
      simpa [hr] using this
    refine ⟨h.alert, ?_, ?_⟩ <;> simp only [hd, hw] <;> split_ifs <;> simp

def Db.withoutDedupGroups (db : Db) : Db := { db with alertDedupGroups := [] }

@[simp] theorem Db.withoutDedupGroups_alerts (db : Db) :
    db.withoutDedupGroups.alerts = db.alerts := rfl

@[simp] theorem Db.withoutDedupGroups_triageResults (db : Db) :
    db.withoutDedupGroups.triageResults = db.triageResults := rfl

@[simp] theorem Db.withoutDedupGroups_auditSamples (db : Db) :
    db.withoutDedupGroups.auditSamples = db.auditSamples := rfl

/-- A relation between worlds that allows what is written while an alert is scored. -/
structure AllowsScoring (rt : Runtime) (r : World → World → Prop) : Prop where
  clock : AllowsClock rt r
  frequency : ∀ f : (String → Option (ℕ × Time)) → String → Option (ℕ × Time),
    Respects r (setRedis fun o => { o with frequency := f o.frequency })

/-- A relation between worlds that allows what is written while the model is asked. -/
structure AllowsAssist (rt : Runtime) (r : World → World → Prop) : Prop where
  clock : AllowsClock rt r
  scores : ∀ f : Outside → Outside,
    (∀ o, ∃ calls scores, f o = { o with llmAssistCalls := calls, cachedScore := scores }) →
      Respects r (setRedis f)

/-- A relation between worlds that allows what is written while duplicates are looked for. -/
structure AllowsGrouping (rt : Runtime) (r : World → World → Prop) : Prop where
  clock : AllowsClock rt r
  groups : ∀ f : Db → Db, (∀ db, ∃ groups, f db = { db with alertDedupGroups := groups }) →
    Respects r (Session.modify f)

theorem allowsScoring_keeps {β : Type} {f : Db → β} : AllowsScoring rt (Keeps f) where
  clock := allowsClock_onDb
  frequency _ := respects_setRedis _

theorem allowsAssist_keeps {β : Type} {f : Db → β} : AllowsAssist rt (Keeps f) where
  clock := allowsClock_onDb
  scores _ _ := respects_setRedis _

theorem allowsGrouping_keeps {β : Type} {f : Db → β}
    (h : ∀ (db : Db) groups, f { db with alertDedupGroups := groups } = f db) :
    AllowsGrouping rt (Keeps f) where
  clock := allowsClock_onDb
  groups _ hg := keeps_modify fun db => by
    obtain ⟨groups, hg⟩ := hg db
    rw [hg, h]

theorem allowsScoring_leaves {β : Type} {f : Db → β} : AllowsScoring rt (Leaves rt f) where
  clock := allowsClock_leaves
  frequency _ := leaves_setRedis fun _ => ⟨rfl, rfl, rfl⟩

theorem allowsAssist_leaves {β : Type} {f : Db → β} : AllowsAssist rt (Leaves rt f) where
  clock := allowsClock_leaves
  scores _ hf := leaves_setRedis fun o => by
    obtain ⟨calls, scores, hf⟩ := hf o
    rw [hf]
    exact ⟨rfl, rfl, rfl⟩

theorem allowsGrouping_leaves {β : Type} {f : Db → β}
    (h : ∀ (db : Db) groups, f { db with alertDedupGroups := groups } = f db) :
    AllowsGrouping rt (Leaves rt f) where
  clock := allowsClock_leaves
  groups _ hg := leaves_modify fun db => by
    obtain ⟨groups, hg⟩ := hg db
    rw [hg, h]

section

variable {r : World → World → Prop} [Std.Refl r] [IsTrans World r]

theorem dedupHandle_respects (h : AllowsGrouping rt r) :
    Respects r (dedupHandle rt config env ctx) := by
  refine (h.clock.utcNow _).bind fun now => (respects_fallible _).bind fun _ =>
    (respects_query _).bind fun groups => ?_
  split
  · exact Respects.bind (h.groups _ fun _ => ⟨_, rfl⟩) fun _ => respects_pure _
  · split
    · exact Respects.bind (h.groups _ fun _ => ⟨_, rfl⟩) fun _ => respects_pure _
    · exact Respects.bind (h.groups _ fun _ => ⟨_, rfl⟩) fun _ => respects_pure _

theorem whitelistHandle_respects (h : AllowsClock rt r) :
    Respects r (whitelistHandle rt env ctx) := by
  unfold whitelistHandle
  split
  · exact respects_pure _
  · refine (h.utcNow _).bind fun now => (respects_fallible _).bind fun _ =>
      (respects_query _).bind fun rules => ?_
    split
    · exact respects_raise _
    · exact respects_pure _
    · exact respects_pure _

theorem profileHintHandle_respects (h : AllowsClock rt r) :
    Respects r (profileHintHandle rt config env ctx) := by
  unfold profileHintHandle
  split
  · exact respects_pure _
  · exact (h.utcNow _).bind fun _ => (respects_fallible _).bind fun _ =>
      (respects_query _).bind fun _ => respects_pure _

theorem getFrequencyCount_respects (h : AllowsScoring rt r) :
    Respects r (getFrequencyCount rt env alert) := by
  refine (h.clock.utcNow _).bind fun now => ?_
  split
  · exact (respects_redis _).bind fun counter =>
      Respects.bind (h.frequency fun f => Function.update f _ _) fun _ => respects_pure _
  · exact (respects_fallible _).bind fun _ => respects_query _

theorem ruleScoreHandle_respects (h : AllowsScoring rt r) :
    Respects r (ruleScoreHandle rt config env ctx) := by
  unfold ruleScoreHandle
  split
  · exact respects_pure _
  · exact (getFrequencyCount_respects h).bind fun _ => (respects_fallible _).bind fun _ =>
      (respects_query _).bind fun _ => respects_pure _

theorem llmScore_respects (h : AllowsAssist rt r) (key : String) :
    Respects r (llmScore rt env key) := by
  refine (h.clock.utcNow _).bind fun now => (respects_redis _).bind fun cached => ?_
  split
  · exact respects_pure _
  · split
    · exact respects_pure _
    · exact Respects.bind (h.scores _ fun _ => ⟨_, _, rfl⟩) fun _ => respects_pure _

theorem llmAssistHandle_respects (h : AllowsAssist rt r) :
    Respects r (llmAssistHandle rt config env ctx) := by
  refine (respects_redis _).bind fun calls => ?_
  split
  · exact respects_pure _
  · split
    · exact respects_pure _
    · split
      · exact respects_pure _
      · exact (llmScore_respects h _).bind fun _ => respects_pure _

end

theorem persistHandle_respectsOut {q : Outside → Outside → Prop} [Std.Refl q] [IsTrans Outside q]
    (h : AllowsClock rt (OnOut q)) : Respects (OnOut q) (persistHandle rt env ctx) := by
  unfold persistHandle
  split
  · exact respects_raise _
  · refine (h.utcNow _).bind fun now => (respects_fallible _).bind fun _ =>
      (respects_query _).bind fun db => ?_
    split
    · exact respects_raise _
    · split
      · exact respects_raise _
      · exact Respects.bind (respectsOut_modify _) fun _ => respects_pure _

/-- The alert gets its triage result, and nothing but the dedup groups changes besides. -/
def Triaged (alert : AlertSnapshot) (db db' : Db) : Prop :=
  ∃ ctx route now, RouteAgrees alert ctx ∧ ctx.routeDecision = some route ∧
    (db.alerts[alert.id]?).isSome ∧ (∀ t ∈ db.triageResults, t.alertId ≠ alert.id) ∧
    db'.withoutDedupGroups = (recordTriage ctx route now db).withoutDedupGroups

theorem persistHandle_ok {w w' : World} {ctx' : TriageContext}
    (h : exec (persistHandle rt env ctx) w = (.ok ctx', w')) :
    ctx' = ctx ∧ ∃ route, ctx.routeDecision = some route ∧
      (w.db.alerts[ctx.alert.id]?).isSome ∧ (∀ t ∈ w.db.triageResults, t.alertId ≠ ctx.alert.id) ∧
      w'.db = recordTriage ctx route (rt.clock.reading w.out.clock env.persistNow) w.db := by
  unfold persistHandle at h
  split at h
  · simp at h
  · rename_i route hroute
    simp only [exec_utcNow_bind, exec_fallible_bind_ok, exec_query_bind, id] at h
    replace h := h.2
    split at h
    · simp at h
    · split at h
      · simp at h
      · rename_i hsome hfresh
        simp only [exec_modify_bind, exec_pure, Prod.mk.injEq, Except.ok.injEq] at h
        obtain ⟨rfl, rfl⟩ := h
        exact ⟨rfl, route, hroute, by simpa [Option.isSome_iff_ne_none] using hsome,
          by simpa using hfresh, rfl⟩

theorem persistHandle_triaged {w w' : World} {ctx' : TriageContext} {db : Db}
    (hctx : RouteAgrees alert ctx) (hdb : w.db.withoutDedupGroups = db.withoutDedupGroups)
    (h : exec (persistHandle rt env ctx) w = (.ok ctx', w')) : Triaged alert db w'.db := by
  obtain ⟨rfl, route, hroute, hsome, hfresh, hrecord⟩ := persistHandle_ok h
  have halerts : w.db.alerts = db.alerts := by simpa using congrArg Db.alerts hdb
  have hresults : w.db.triageResults = db.triageResults := by
    simpa using congrArg Db.triageResults hdb
  have hsamples : w.db.auditSamples = db.auditSamples := by
    simpa using congrArg Db.auditSamples hdb
  rw [halerts, hctx.alert] at hsome
  rw [hresults, hctx.alert] at hfresh
  refine ⟨ctx', route, rt.clock.reading w.out.clock env.persistNow, hctx, hroute, hsome, hfresh, ?_⟩
  rw [hrecord]
  simp only [recordTriage, Db.withoutDedupGroups, halerts, hresults, hsamples]
  simp only [Db.withoutDedupGroups, Db.mk.injEq] at hdb
  simp [hdb]

theorem pipelineRun_triaged {w w' : World} {ctx' : TriageContext}
    (h : exec (pipelineRun rt config env { alert := alert }) w = (.ok ctx', w')) :
    Triaged alert w.db w'.db := by
  obtain ⟨c₁, w₁, h₁, h⟩ := exec_bind_ok.mp h
  obtain ⟨c₂, w₂, h₂, h⟩ := exec_bind_ok.mp h
  obtain ⟨c₃, w₃, h₃, h⟩ := exec_bind_ok.mp h
  obtain ⟨c₄, w₄, h₄, h⟩ := exec_bind_ok.mp h
  obtain ⟨c₅, w₅, h₅, h⟩ := exec_bind_ok.mp h
  have r₁ := dedupHandle_returns _ _ _ h₁
  have r₂ := whitelistHandle_returns r₁ _ _ _ h₂
  have r₃ := profileHintHandle_returns r₂ _ _ _ h₃
  have r₄ := ruleScoreHandle_returns r₃ _ _ _ h₄
  have r₅ := llmAssistHandle_returns r₄ _ _ _ h₅
  have d₁ : Keeps Db.withoutDedupGroups w w₁ :=
    (dedupHandle_respects (allowsGrouping_keeps fun _ _ => rfl)).of_exec h₁
  have d₂ : Keeps Db.withoutDedupGroups w₁ w₂ :=
    (whitelistHandle_respects allowsClock_onDb).of_exec h₂
  have d₃ : Keeps Db.withoutDedupGroups w₂ w₃ :=
    (profileHintHandle_respects allowsClock_onDb).of_exec h₃
  have d₄ : Keeps Db.withoutDedupGroups w₃ w₄ :=
    (ruleScoreHandle_respects allowsScoring_keeps).of_exec h₄
  have d₅ : Keeps Db.withoutDedupGroups w₄ w₅ :=
    (llmAssistHandle_respects allowsAssist_keeps).of_exec h₅
  exact persistHandle_triaged (routeHandle_agrees r₅)
    (d₅.trans (d₄.trans (d₃.trans (d₂.trans d₁)))) h

theorem exec_triageLoop_body {runEnv : TriageRunEnv} {w : World} :
    (exec ((triageLoop rt config runEnv).body alert) w).2 =
      (exec (pipelineRun rt config (runEnv.items alert.id) { alert }) w).2 := by
  change (exec (pipelineRun rt config (runEnv.items alert.id) { alert } >>= fun _ => _) w).2 = _
  rcases hrun : exec (pipelineRun rt config (runEnv.items alert.id) { alert }) w with ⟨e | ctx, w'⟩
  · rw [exec_bind_of_error hrun]
  · rw [exec_bind_of_ok hrun, exec_fallible_snd]

/-- A triage run relates the databases before and after as triaging each of its alerts does. -/
theorem triageRun_respects {r : Db → Db → Prop} [Std.Refl r] [IsTrans Db r]
    {runEnv : TriageRunEnv} {limit : Option ℤ} {useLock : Bool}
    (h : ∀ alert db db', Triaged alert db db' → r db db') :
    Respects (OnDb r) (triageRun rt config runEnv limit useLock) := by
  unfold triageRun
  split
  · exact respects_pure _
  · refine (respects_setRedis _).bind fun _ => (respects_sqlLimit _).bind fun n =>
      (respects_fallible _).bind fun _ => (respects_query _).bind fun alerts =>
      Loop.respects_run (fun alert w _ w' hb => ?_) fun _ w _ _ _ => Std.Refl.refl (r := r) w.db
    obtain ⟨ctx, w₁, hrun, hc⟩ := exec_bind_ok.mp hb
    obtain ⟨-, rfl⟩ := exec_fallible_ok.mp hc
    exact h _ _ _ (pipelineRun_triaged hrun)

section

variable {β : Type} {f : Db → β}
  (h : ∀ (db : Db) groups results alerts samples, f { db with
    alertDedupGroups := groups, triageResults := results, alerts := alerts
    auditSamples := samples } = f db)

include h

theorem persistHandle_leaves : Respects (Leaves rt f) (persistHandle rt env ctx) := by
  unfold persistHandle
  split
  · exact respects_raise _
  · refine (leaves_utcNow _).bind fun now => (respects_fallible _).bind fun _ =>
      (respects_query _).bind fun db => ?_
    split
    · exact respects_raise _
    · split
      · exact respects_raise _
      · exact Respects.bind (leaves_modify fun db => h db _ _ _ _) fun _ => respects_pure _

theorem pipelineRun_leaves : Respects (Leaves rt f) (pipelineRun rt config env ctx) := by
  have hgroups : AllowsGrouping rt (Leaves rt f) :=
    allowsGrouping_leaves fun db groups => h db groups _ _ _
  exact (dedupHandle_respects hgroups).bind fun _ =>
    (whitelistHandle_respects allowsClock_leaves).bind fun _ =>
    (profileHintHandle_respects allowsClock_leaves).bind fun _ =>
    (ruleScoreHandle_respects allowsScoring_leaves).bind fun _ =>
    (llmAssistHandle_respects allowsAssist_leaves).bind fun _ => persistHandle_leaves h

theorem triageRun_leaves {runEnv : TriageRunEnv} {limit : Option ℤ} {useLock : Bool} :
    Respects (Leaves rt f) (triageRun rt config runEnv limit useLock) := by
  unfold triageRun
  split
  · exact respects_pure _
  · refine Respects.bind (leaves_setRedis fun _ => ⟨rfl, rfl, rfl⟩) fun _ =>
      (respects_sqlLimit _).bind fun n => (respects_fallible _).bind fun _ =>
      (respects_query _).bind fun alerts => leaves_loop (fun alert => ?_) rfl
    exact (pipelineRun_leaves h).bind fun _ => respects_fallible _

end

end

end Minsight

import Minsight.Assets.Atomicity

/-! # Which events a settlement run reaches

The selection looks at a fixed number of concluded events, the oldest first, and only then
passes over probes, events without a settleable investigation and events whose case is
there already.
-/

namespace Minsight

open Tx Session

/-- The event has a settleable investigation without a case and is no probe. -/
structure Unsettled (tie : ℕ → ℕ) (db : Db) (e i : ℕ) : Prop where
  real : eventIsProbe db e = false
  latest : ∃ conclusion, latestSettleableInvestigation tie db e = some (i, conclusion)
  fresh : (db.judgmentCases.countP fun c => c.investigationId == i) = 0

/-- A concluded event that settling is for, and its investigation. -/
structure Eligible (tie : ℕ → ℕ) (db : Db) (e i : ℕ) : Prop extends Unsettled tie db e i where
  concluded : ∃ event, db.events[e]? = some event ∧ event.status = .concluded

/-- The first `n` concluded events in the order of their last alert. -/
def oldestConcluded (tie : ℕ → ℕ) (n : ℕ) (db : Db) : List (ℕ × Event) :=
  Rows.orderLimit (fun x y => (compareTimes x.2.lastAlertAt y.2.lastAlertAt).then
    (compare (tie x.1) (tie y.1)) |>.isLE) n
    (db.events.select fun _ e => e.status == .concluded)

theorem concluded_of_mem {tie : ℕ → ℕ} {n : ℕ} {db : Db} {x : ℕ × Event}
    (h : x ∈ oldestConcluded tie n db) :
    ∃ event, db.events[x.1]? = some event ∧ event.status = .concluded := by
  obtain ⟨e, event⟩ := x
  have hmem := Rows.mem_of_mem_orderLimit h
  simp only [Rows.mem_select, beq_iff_eq] at hmem
  exact ⟨event, hmem⟩

section

variable {rt : Runtime} {config : DefenseAssetConfig} {env : AssetPipelineEnv} {tie : ℕ → ℕ}
  {limit : ℕ} {ts ts' : List SettleTarget} {events : List (ℕ × Event)} {w w' : World}

/-- What was collected: earlier targets and unsettled ones among the events looked at. -/
structure Collects (tie : ℕ → ℕ) (db : Db) (limit : ℕ) (events : List (ℕ × Event))
    (ts ts' : List SettleTarget) : Prop where
  targets : ∀ t ∈ ts', t ∈ ts ∨ t.eventId ∈ events.map Prod.fst ∧
    Unsettled tie db t.eventId t.investigationId
  keeps : ts ≠ [] → ts' ≠ []
  reaches : 1 ≤ limit → (∃ x ∈ events, ∃ i, Unsettled tie db x.1 i) → ts' ≠ []

/-- An event that is passed over is settled already, or was never to be settled. -/
theorem Collects.skip {db : Db} {x : ℕ × Event} (h : Collects tie db limit events ts ts')
    (hx : ∀ i, ¬ Unsettled tie db x.1 i) : Collects tie db limit (x :: events) ts ts' where
  targets t ht := by
    rcases h.targets t ht with hold | ⟨hmem, hun⟩
    · exact .inl hold
    · exact .inr ⟨List.mem_cons_of_mem _ hmem, hun⟩
  keeps := h.keeps
  reaches hlimit hex := by
    obtain ⟨y, hy, i, hun⟩ := hex
    rcases List.mem_cons.mp hy with rfl | hmem
    · exact absurd hun (hx i)
    · exact h.reaches hlimit ⟨y, hmem, i, hun⟩

theorem Collects.take {db : Db} {x : ℕ × Event} {t : SettleTarget}
    (h : Collects tie db limit events (ts ++ [t]) ts') (ht : t.eventId = x.1)
    (hun : Unsettled tie db t.eventId t.investigationId) :
    Collects tie db limit (x :: events) ts ts' where
  targets u hu := by
    rcases h.targets u hu with hold | ⟨hmem, hun'⟩
    · rcases List.mem_append.mp hold with hold | hnew
      · exact .inl hold
      · obtain rfl := List.mem_singleton.mp hnew
        exact .inr ⟨by simp [ht], hun⟩
    · exact .inr ⟨List.mem_cons_of_mem _ hmem, hun'⟩
  keeps _ := h.keeps (by simp)
  reaches _ _ := h.keeps (by simp)

theorem Collects.refl {db : Db} (h : limit ≤ ts.length) : Collects tie db limit events ts ts where
  targets t ht := .inl ht
  keeps := id
  reaches hlimit _ := by
    rintro rfl
    simp at h
    omega

theorem Collects.closed {db : Db} {e : ℕ} {status : EventStatus}
    (h : Collects tie (db.setEventStatus e status) limit events ts ts') :
    Collects tie db limit events ts ts' where
  targets t ht := by
    rcases h.targets t ht with hold | ⟨hmem, hun⟩
    · exact .inl hold
    · exact .inr ⟨hmem, ⟨hun.real, hun.latest, hun.fresh⟩⟩
  keeps := h.keeps
  reaches hlimit hex := by
    obtain ⟨x, hx, i, hun⟩ := hex
    exact h.reaches hlimit ⟨x, hx, i, ⟨hun.real, hun.latest, hun.fresh⟩⟩

theorem collectTargets_collects (h : exec (collectTargets config tie limit ts events) w =
    (.ok ts', w')) : Collects tie w.db limit events ts ts' := by
  induction events generalizing ts w with
  | nil =>
    obtain ⟨rfl, -⟩ : ts = ts' ∧ w = w' := by simpa [collectTargets] using h
    exact ⟨fun t ht => .inl ht, id, fun _ ⟨_, hx, _⟩ => absurd hx List.not_mem_nil⟩
  | cons x events ih =>
    obtain ⟨e, event⟩ := x
    unfold collectTargets at h
    split at h
    · obtain ⟨rfl, -⟩ : ts = ts' ∧ w = w' := by simpa using h
      exact .refl ‹_›
    · rw [exec_query_bind] at h
      dsimp only [id] at h
      split at h
      · rename_i hprobe
        exact (ih h).skip fun i hun => by simp [hun.real] at hprobe
      · rename_i hprobe
        split at h
        · rename_i hnone
          refine (ih h).skip fun i hun => ?_
          obtain ⟨conclusion, hlatest⟩ := hun.latest
          simp [hnone] at hlatest
        · rename_i i conclusion hlatest
          have hother (j : ℕ) (hun : Unsettled tie w.db e j) :
              (w.db.judgmentCases.countP fun c => c.investigationId == i) = 0 := by
            obtain ⟨conclusion', hlatest'⟩ := hun.latest
            obtain ⟨rfl, -⟩ : i = j ∧ conclusion = conclusion' := by simpa [hlatest] using hlatest'
            exact hun.fresh
          split at h
          · rename_i hzero
            exact (ih h).take rfl ⟨by simpa using hprobe, ⟨conclusion, hlatest⟩, hzero⟩
          · rename_i hone
            have hskip (j : ℕ) : ¬ Unsettled tie w.db e j := fun hun => by
              rw [hother j hun] at hone
              cases hone
            split at h
            · obtain ⟨_, w₁, hclose, h⟩ := exec_bind_ok.mp h
              have hcollects := ih h
              obtain rfl : { w with db := w.db.setEventStatus e .closed } = w₁ := by
                simpa [closeEvent] using hclose
              exact hcollects.closed.skip hskip
            · exact (ih h).skip hskip
          · simp at h

theorem settleAll_errors {result result' : AssetPipelineResult}
    (h : exec (settleAll rt config env result ts) w = (.ok result', w'))
    (herrors : result'.errors = []) : result.errors = [] := by
  induction ts generalizing result w with
  | nil =>
    obtain ⟨rfl, -⟩ : result = result' ∧ w = w' := by simpa [settleAll] using h
    exact herrors
  | cons t ts ih =>
    rw [settleAll, exec_bind_attempt] at h
    split at h
    · have hrest := ih h
      exact hrest
    · have hrest := ih h
      simp at hrest

theorem settleAll_cases {result result' : AssetPipelineResult} (hopen : w.failed = false)
    (h : exec (settleAll rt config env result ts) w = (.ok result', w'))
    (herrors : result'.errors = []) :
    w'.db.judgmentCases.map (·.investigationId) =
      w.db.judgmentCases.map (·.investigationId) ++ ts.map (·.investigationId) := by
  induction ts generalizing result w with
  | nil =>
    obtain ⟨-, rfl⟩ : result = result' ∧ w = w' := by simpa [settleAll] using h
    simp
  | cons t ts ih =>
    rw [settleAll, exec_bind_attempt] at h
    cases hone : exec (settleOne rt config (env.items t.eventId) env.tie t) w with
    | mk r w₁ =>
      rw [hone] at h
      cases r with
      | error e =>
        have := settleAll_errors h herrors
        simp at this
      | ok u =>
        have hreturns : (returned (settleOne rt config (env.items t.eventId) env.tie t) w).isSome =
            true := by
          simp [returned, hone, Except.toOption]
        have hfault := (settleOne_returns_iff hopen).mp hreturns
        have hbuild : (env.items t.eventId).faults .buildCase = none :=
          (Option.or_eq_none_iff.mp hfault).1
        obtain ⟨a, w₂, hexec, hopen₂, hfiled⟩ :=
          (settleOne_ends rt config env.tie t hopen hbuild).returns hfault
        obtain rfl : w₁ = w₂ := by
          have := hone.symm.trans hexec
          simpa using (Prod.mk.inj this).2
        obtain ⟨case, hcase, hcases⟩ := hfiled.cases
        rw [ih hopen₂ h, hcases, List.map_append, List.map_singleton, hcase, List.map_cons,
          List.append_assoc, List.singleton_append]

theorem assetPipelineRun_ok {limit : Option ℤ} {useLock : Bool} {result : AssetPipelineResult}
    (hlock : (useLock && !env.lockAcquired) = false) (henabled : config.enabled = true)
    (h : exec (assetPipelineRun rt config env limit useLock) w = (.ok result, w')) :
    ∃ ts w₁, exec (pickTargets config env.tie (limitOr limit config.batchSize)) w = (.ok ts, w₁) ∧
      w₁.failed = false ∧ exec (settleAll rt config env {} ts) w₁ = (.ok result, w') := by
  unfold assetPipelineRun at h
  have hrun := exec_atomically_ok.mp h
  simp only [hlock, henabled, Bool.not_true, Bool.false_eq_true, if_false,
    exec_fallible_bind_ok] at hrun
  obtain ⟨ts, w₁, htargets, hrun⟩ := exec_bind_ok.mp hrun.2
  obtain ⟨r, w₂, hsettle, hrun⟩ := exec_bind_ok.mp hrun
  obtain ⟨u, w₃, hcommit, hrun⟩ := exec_bind_ok.mp hrun
  obtain ⟨rfl, rfl⟩ : r = result ∧ w₃ = w' := by simpa using hrun
  cases hfailed : w₂.failed with
  | true => simp [commitRun, hfailed] at hcommit
  | false =>
    obtain rfl : w₂ = w₃ := by
      simp only [commitRun, exec_bind_read, hfailed, Bool.false_eq_true, if_false] at hcommit
      exact (exec_fallible_ok.mp hcommit).2
    refine ⟨ts, w₁, htargets, ?_, hsettle⟩
    cases hfailed₁ : w₁.failed with
    | false => rfl
    | true =>
      have hstuck : w₂ = w₁ := by
        have := settled_of_failed rt config env ts hfailed₁
        rwa [settled, hsettle] at this
      rw [hstuck, hfailed₁] at hfailed
      cases hfailed

end

/--
A settlement run without errors settles an eligible event, whenever there is one, if and only
if one of them is among the concluded events that the selection looks at: the first three
times the limit in the order of their last alert.
-/
theorem pipeline_settles_iff {rt : Runtime} {config : DefenseAssetConfig} {env : AssetPipelineEnv}
    {limit : Option ℤ} {useLock : Bool} {n : ℤ} {result : AssetPipelineResult} {w w' : World}
    (hlock : (useLock && !env.lockAcquired) = false) (henabled : config.enabled = true)
    (hlimit : limitOr limit config.batchSize = n) (hn : 1 ≤ n)
    (hrun : exec (assetPipelineRun rt config env limit useLock) w = (.ok result, w'))
    (herrors : result.errors = []) :
    ((∃ e i, Eligible env.tie w.db e i) → ∃ e i, Eligible env.tie w.db e i ∧
        ∃ case ∈ w'.db.judgmentCases, case.investigationId = i) ↔
      ((∃ e i, Eligible env.tie w.db e i) →
        ∃ x ∈ oldestConcluded env.tie (n * 3).toNat w.db, ∃ i, Eligible env.tie w.db x.1 i) := by
  obtain ⟨ts, w₁, htargets, hopen, hsettle⟩ := assetPipelineRun_ok hlock henabled hrun
  have hcases := settleAll_cases hopen hsettle herrors
  rw [(pickTargets_keeps htargets).2] at hcases
  have hcollects : Collects env.tie w.db n.toNat (oldestConcluded env.tie (n * 3).toNat w.db) [] ts := by
    rw [hlimit, pickTargets, sqlLimit, if_neg (by omega), exec_bind_pure, exec_query_bind] at htargets
    exact collectTargets_collects htargets
  have heligible (t : SettleTarget) (ht : t ∈ ts) :
      t.eventId ∈ (oldestConcluded env.tie (n * 3).toNat w.db).map Prod.fst ∧
        Eligible env.tie w.db t.eventId t.investigationId := by
    rcases hcollects.targets t ht with hold | ⟨hmem, hun⟩
    · cases hold
    · obtain ⟨x, hx, hxe⟩ := List.mem_map.mp hmem
      exact ⟨hmem, { hun with concluded := hxe ▸ concluded_of_mem hx }⟩
  refine imp_congr_right fun _ => ⟨?_, ?_⟩
  · rintro ⟨e, i, helig, case, hcase, rfl⟩
    have hnew : case.investigationId ∈ ts.map (·.investigationId) := by
      have hmem : case.investigationId ∈ w'.db.judgmentCases.map (·.investigationId) :=
        List.mem_map_of_mem hcase
      rw [hcases] at hmem
      refine (List.mem_append.mp hmem).resolve_left fun hold => ?_
      obtain ⟨c, hc, hci⟩ := List.mem_map.mp hold
      have hpos : 0 < w.db.judgmentCases.countP fun c => c.investigationId == case.investigationId :=
        List.countP_pos_iff.mpr ⟨c, hc, by simpa using hci⟩
      exact absurd helig.fresh (Nat.ne_of_gt hpos)
    obtain ⟨t, ht, -⟩ := List.mem_map.mp hnew
    obtain ⟨hmem, helig'⟩ := heligible t ht
    obtain ⟨x, hx, hxe⟩ := List.mem_map.mp hmem
    exact ⟨x, hx, t.investigationId, hxe ▸ helig'⟩
  · rintro ⟨x, hx, i, helig⟩
    have hne := hcollects.reaches (by omega) ⟨x, hx, i, helig.toUnsettled⟩
    obtain ⟨t, ht⟩ := List.exists_mem_of_ne_nil ts hne
    refine ⟨t.eventId, t.investigationId, (heligible t ht).2, ?_⟩
    have hmem : t.investigationId ∈ w'.db.judgmentCases.map (·.investigationId) := by
      rw [hcases]
      exact List.mem_append_right _ (List.mem_map_of_mem ht)
    exact List.mem_map.mp hmem

theorem exists_latest {tie : ℕ → ℕ} {db : Db} {e i : ℕ}
    (h : (latestSettleableInvestigation tie db e).map Prod.fst = some i) :
    ∃ conclusion, latestSettleableInvestigation tie db e = some (i, conclusion) := by
  obtain ⟨⟨j, conclusion⟩, hlatest, rfl⟩ := Option.map_eq_some_iff.mp h
  exact ⟨conclusion, hlatest⟩

theorem concludedEvents_eligible : Eligible id (concludedEvents 2) 0 0 where
  real := rfl
  latest := exists_latest (by decide +kernel)
  fresh := rfl
  concluded := ⟨_, rfl, rfl⟩

/-- One of two events that are to be settled is settled by a run for one event. -/
theorem pipeline_settles_one :
    ∃ e i, Eligible id (concludedEvents 2) e i ∧ ∃ case ∈ (exec (assetPipelineRun
      (sampleRuntime .free []) {} {} (some 1) true) { db := concludedEvents 2 }).2.db.judgmentCases,
        case.investigationId = i := by
  have herrors : (returned (assetPipelineRun (sampleRuntime .free []) {} {} (some 1) true)
      { db := concludedEvents 2 }).map (·.errors) = some [] := by decide +kernel
  obtain ⟨result, hresult, herrors⟩ := Option.map_eq_some_iff.mp herrors
  have hrun := exec_of_returned hresult
  have hwindow : ((oldestConcluded id 3 (concludedEvents 2)).map Prod.fst).head? = some 0 := by
    decide +kernel
  refine (pipeline_settles_iff (n := 1) rfl rfl rfl le_rfl hrun herrors).mpr (fun _ => ?_)
    ⟨0, 0, concludedEvents_eligible⟩
  obtain ⟨x, hx, hx0⟩ := List.mem_map.mp (List.mem_of_mem_head? hwindow)
  exact ⟨x, hx, 0, hx0 ▸ concludedEvents_eligible⟩

/-- Three settled events that stay open, and one that is to be settled. -/
def settledFirst : Db :=
  { concludedEvents 4 with
    judgmentCases := (List.range 3).map fun i =>
      { investigationId := i, featureSummary := "", verdict := .attackConfirmed, reasoning := "" } }

/-- The events that stay open fill the selection, and the last event is not reached. -/
theorem settled_events_starve_pipeline :
    ¬ ((∃ e i, Eligible id settledFirst e i) → ∃ e i, Eligible id settledFirst e i ∧
      ∃ case ∈ (exec (assetPipelineRun (sampleRuntime .free []) { autoCloseEvent := false } {}
        (some 1) true) { db := settledFirst }).2.db.judgmentCases, case.investigationId = i) := by
  intro h
  have hlast : Eligible id settledFirst 3 3 :=
    { real := rfl
      latest := exists_latest (by decide +kernel)
      fresh := by decide +kernel
      concluded := ⟨_, rfl, rfl⟩ }
  obtain ⟨e, i, helig, case, hcase, rfl⟩ := h ⟨3, 3, hlast⟩
  have hcases : (exec (assetPipelineRun (sampleRuntime .free []) { autoCloseEvent := false } {}
      (some 1) true) { db := settledFirst }).2.db.judgmentCases.map (·.investigationId) =
      settledFirst.judgmentCases.map (·.investigationId) := by decide +kernel
  have hmem := List.mem_map_of_mem (f := JudgmentCase.investigationId) hcase
  rw [hcases] at hmem
  obtain ⟨c, hc, hci⟩ := List.mem_map.mp hmem
  exact List.countP_eq_zero.mp helig.fresh c hc (by simpa using hci)

end Minsight

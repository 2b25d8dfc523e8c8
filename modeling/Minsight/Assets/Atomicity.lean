import Minsight.Assets.Settlement

/-! # Failing targets of a settlement run

A target that raises is reported, but the session is not rolled back: what the target had
written by then is committed with the rest of the run. A failed database statement ends
the transaction for all targets.
-/

namespace Minsight

open Tx Session

/-- `AssetPipeline.run` on those of the selected targets that are kept. -/
def settlementRun (rt : Runtime) (config : DefenseAssetConfig) (env : AssetPipelineEnv)
    (limit : Option ℤ) (useLock : Bool) (keep : SettleTarget → Bool) :
    Session AssetPipelineResult :=
  Session.transaction do
    if useLock && !env.lockAcquired then pure { skippedLock := true }
    else if !config.enabled then pure { skippedDisabled := true }
    else
      Tx.fallible env.pickFault
      let targets ← pickTargets config env.tie (limitOr limit config.batchSize)
      let result ← settleAll rt config env {} (targets.filter keep)
      commitRun env.commitFault
      pure result

theorem assetPipelineRun_eq_settlementRun (rt : Runtime) (config : DefenseAssetConfig)
    (env : AssetPipelineEnv) (limit : Option ℤ) (useLock : Bool) :
    assetPipelineRun rt config env limit useLock =
      settlementRun rt config env limit useLock fun _ => true := by
  simp [assetPipelineRun, settlementRun]

section

variable {rt : Runtime} {config : DefenseAssetConfig} {env : AssetPipelineEnv}
  {ts : List SettleTarget} {w w₁ : World}

theorem targetFault_congr {db db' : Db} {t : SettleTarget}
    (h : ∀ phash, 2 ≤ pendingCandidates db' phash ↔ 2 ≤ pendingCandidates db phash) :
    targetFault rt config env db' t = targetFault rt config env db t := settleFault_congr h

/-- Without a failed statement, every target whose case can be built leaves a case behind. -/
theorem settled_open (h : w.failed = false)
    (hf : ∀ t ∈ ts, targetFault rt config env w.db t ≠ some .database) :
    (settled rt config env ts w).failed = false ∧
      (settled rt config env ts w).db.judgmentCases.length = w.db.judgmentCases.length +
        ts.countP fun t => (env.items t.eventId).faults .buildCase = none := by
  induction ts generalizing w with
  | nil => exact ⟨h, rfl⟩
  | cons t ts ih =>
    obtain ⟨w₁, hw₁, hopen, hdup, hlength⟩ := settleOne_open h (hf t List.mem_cons_self)
    rw [settled_cons, hw₁]
    obtain ⟨hopen', hlength'⟩ := ih hopen fun t' ht' => by
      rw [targetFault_congr hdup]
      exact hf t' (List.mem_cons_of_mem _ ht')
    refine ⟨hopen', ?_⟩
    rw [hlength', hlength, List.countP_cons]
    simp only [decide_eq_true_eq]
    omega

theorem settled_failed (h : w.failed = false)
    (hf : ∃ t ∈ ts, targetFault rt config env w.db t = some .database) :
    (settled rt config env ts w).failed = true := by
  induction ts generalizing w with
  | nil => simp at hf
  | cons t ts ih =>
    rw [settled_cons]
    by_cases ht : targetFault rt config env w.db t = some .database
    · have hfailed : (exec (settleOne rt config (env.items t.eventId) env.tie t) w).2.failed = true := by
        cases hbuild : (env.items t.eventId).faults .buildCase with
        | none =>
          obtain ⟨e, w', hexec, hfailed, -⟩ :=
            (settleOne_ends rt config env.tie t h hbuild).raises .database ht
          rw [hexec, hfailed]
          rfl
        | some f =>
          obtain ⟨e, hexec⟩ := settleOne_of_buildCase rt config env.tie t h hbuild
          obtain rfl : f = .database := by simpa [targetFault, settleFault, hbuild] using ht
          rw [hexec]
          rfl
      rwa [settled_of_failed _ _ _ _ hfailed]
    · obtain ⟨w₁, hw₁, hopen, hdup, -⟩ := settleOne_open h ht
      rw [hw₁]
      refine ih hopen ?_
      obtain ⟨t', ht', hft⟩ := hf
      rcases List.mem_cons.mp ht' with rfl | hmem
      · exact absurd hft ht
      · exact ⟨t', hmem, by rwa [targetFault_congr hdup]⟩

/-- Targets whose cases cannot be built, without a failed statement, may be left out. -/
theorem settled_filter {keep : SettleTarget → Bool} (h : w.failed = false)
    (hkeep : ∀ t ∈ ts, keep t = true ↔ targetFault rt config env w.db t = none)
    (hf : ∀ t ∈ ts, targetFault rt config env w.db t = none ∨
      ∃ e, (env.items t.eventId).faults .buildCase = some (.raises e)) :
    settled rt config env (ts.filter keep) w = settled rt config env ts w := by
  induction ts generalizing w with
  | nil => rfl
  | cons t ts ih =>
    have hkt := hkeep t List.mem_cons_self
    rw [settled_cons]
    rcases hf t List.mem_cons_self with hnone | ⟨e, hbuild⟩
    · have hne : targetFault rt config env w.db t ≠ some .database := by simp [hnone]
      obtain ⟨w₁, hw₁, hopen, hdup, -⟩ := settleOne_open h hne
      rw [List.filter_cons, if_pos (hkt.mpr hnone), settled_cons, hw₁]
      refine ih hopen (fun t' ht' => ?_) fun t' ht' => ?_
      · rw [targetFault_congr hdup]
        exact hkeep t' (List.mem_cons_of_mem _ ht')
      · rw [targetFault_congr hdup]
        exact hf t' (List.mem_cons_of_mem _ ht')
    · obtain ⟨e', hexec⟩ := settleOne_of_buildCase rt config env.tie t h hbuild
      have hfault : targetFault rt config env w.db t = some (.raises e) := by
        simp [targetFault, settleFault, hbuild]
      have hdrop : ¬ keep t = true := fun hk => by simp [hkt.mp hk] at hfault
      have hw : (exec (settleOne rt config (env.items t.eventId) env.tie t) w).2 = w := by
        rw [hexec, show (SettleFault.raises e == .database) = false from rfl, ← h]
      rw [List.filter_cons, if_neg hdrop, hw]
      exact ih h (fun t' ht' => hkeep t' (List.mem_cons_of_mem _ ht'))
        fun t' ht' => hf t' (List.mem_cons_of_mem _ ht')

/-- A target raises, settled alone, exactly when it has a fault. -/
theorem settleOne_returns_iff {t : SettleTarget} (h : w.failed = false) :
    (returned (settleOne rt config (env.items t.eventId) env.tie t) w).isSome = true ↔
      targetFault rt config env w.db t = none := by
  cases hbuild : (env.items t.eventId).faults .buildCase with
  | some f =>
    obtain ⟨e, hexec⟩ := settleOne_of_buildCase rt config env.tie t h hbuild
    simp [returned, hexec, Except.toOption, targetFault, settleFault, hbuild]
  | none =>
    have hends := settleOne_ends rt config env.tie t h hbuild
    cases hf : targetFault rt config env w.db t with
    | none =>
      obtain ⟨a, w', hexec, -⟩ := hends.returns hf
      simp [returned, hexec, Except.toOption]
    | some f =>
      obtain ⟨e, w', hexec, -⟩ := hends.raises f hf
      simp [returned, hexec, Except.toOption]

theorem pickTargets_keeps {limit : ℤ} (h : exec (pickTargets config env.tie limit) w = (.ok ts, w₁)) :
    w₁.failed = w.failed ∧ w₁.db.judgmentCases = w.db.judgmentCases :=
  ⟨(pickTargets_respects (r := fun w w' : World => w'.failed = w.failed) fun _ _ => rfl).of_exec h,
    (pickTargets_respects (r := Keeps Db.judgmentCases) fun _ => keeps_modify fun _ => rfl).of_exec h⟩

/-- What a run commits: everything, unless the transaction has failed or cannot be committed. -/
theorem settlementRun_db {limit : Option ℤ} {useLock : Bool} {keep : SettleTarget → Bool}
    (hlock : (useLock && !env.lockAcquired) = false) (henabled : config.enabled = true)
    (hpick : env.pickFault = none)
    (htargets : exec (pickTargets config env.tie (limitOr limit config.batchSize)) w =
      (.ok ts, w₁)) :
    (exec (settlementRun rt config env limit useLock keep) w).2.db =
      if (settled rt config env (ts.filter keep) w₁).failed = true ∨ env.commitFault.isSome then w.db
      else (settled rt config env (ts.filter keep) w₁).db := by
  have hall (r : AssetPipelineResult) (l : List SettleTarget) (w₁ : World) :
      ∃ r', exec (settleAll rt config env r l) w₁ = (.ok r', settled rt config env l w₁) := by
    induction l generalizing r w₁ with
    | nil => exact ⟨r, rfl⟩
    | cons t l ih =>
      rw [settled_cons, settleAll, exec_bind_attempt]
      split
      · exact ih _ _
      · exact ih _ _
  obtain ⟨r, hr⟩ := hall {} (ts.filter keep) w₁
  rw [settlementRun, exec_atomically]
  simp only [hlock, henabled, hpick, Bool.not_true, Bool.false_eq_true, if_false, fallible,
    exec_bind_pure]
  rw [exec_bind_of_ok htargets, exec_bind_of_ok hr]
  cases hfailed : (settled rt config env (ts.filter keep) w₁).failed with
  | true => simp [commitRun, hfailed, Except.map]
  | false =>
    cases hcommit : env.commitFault with
    | some e => simp [commitRun, hfailed, fallible, Except.map]
    | none => simp [commitRun, hfailed, fallible]

end

/--
A settlement run commits what it would commit without the targets that raise, if and only
if it commits nothing anyway, or every target that raises does so before its case is built
and without a failed statement, or no target is settled, the selection closed no event and a
failed statement ends the transaction.
-/
theorem settlement_isolates_iff (rt : Runtime) {config : DefenseAssetConfig}
    (env : AssetPipelineEnv) (limit : Option ℤ) (useLock : Bool) {w w₁ : World}
    {ts : List SettleTarget} (hopen : w.failed = false)
    (hlock : (useLock && !env.lockAcquired) = false) (henabled : config.enabled = true)
    (hpick : env.pickFault = none)
    (htargets : exec (pickTargets config env.tie (limitOr limit config.batchSize)) w =
      (.ok ts, w₁)) :
    (exec (assetPipelineRun rt config env limit useLock) w).2.db =
        (exec (settlementRun rt config env limit useLock fun t =>
          (returned (settleOne rt config (env.items t.eventId) env.tie t) w₁).isSome) w).2.db ↔
      env.commitFault.isSome ∨
      (∀ t ∈ ts, targetFault rt config env w₁.db t = none ∨
        ∃ e, (env.items t.eventId).faults .buildCase = some (.raises e)) ∨
      (w₁.db = w.db ∧ (∀ t ∈ ts, targetFault rt config env w₁.db t ≠ none) ∧
        ∃ t ∈ ts, targetFault rt config env w₁.db t = some .database) := by
  obtain ⟨hfailed, hcases⟩ := pickTargets_keeps htargets
  have hopen₁ : w₁.failed = false := hfailed.trans hopen
  have hreturns (t : SettleTarget) :
      (returned (settleOne rt config (env.items t.eventId) env.tie t) w₁).isSome = true ↔
        targetFault rt config env w₁.db t = none := settleOne_returns_iff hopen₁
  rw [assetPipelineRun_eq_settlementRun, settlementRun_db hlock henabled hpick htargets,
    settlementRun_db hlock henabled hpick htargets, List.filter_eq_self.mpr fun _ _ => rfl]
  generalize hkept : ts.filter (fun t =>
    (returned (settleOne rt config (env.items t.eventId) env.tie t) w₁).isSome) = kept
  have hmem (t : SettleTarget) : t ∈ kept ↔ t ∈ ts ∧ targetFault rt config env w₁.db t = none := by
    rw [← hkept, List.mem_filter, hreturns]
  -- the run without the raising targets goes through and leaves a case for each of the others
  have hkeptNoDb : ∀ t ∈ kept, targetFault rt config env w₁.db t ≠ some .database := fun t ht => by
    simp [((hmem t).mp ht).2]
  obtain ⟨hkeptOpen, hkeptLength⟩ := settled_open hopen₁ hkeptNoDb
  cases hcommit : env.commitFault with
  | some e => simp
  | none =>
    simp only [hkeptOpen, Bool.false_eq_true, Option.isSome_none, or_false, if_false, false_or]
    have hbuilt (t : SettleTarget) (ht : targetFault rt config env w₁.db t = none) :
        (env.items t.eventId).faults .buildCase = none := (Option.or_eq_none_iff.mp ht).1
    have hplain (t : SettleTarget) (e : Exn)
        (ht : (env.items t.eventId).faults .buildCase = some (.raises e)) :
        targetFault rt config env w₁.db t = some (.raises e) := by
      simp [targetFault, settleFault, ht]
    by_cases hdb : ∃ t ∈ ts, targetFault rt config env w₁.db t = some .database
    · rw [if_pos (settled_failed hopen₁ hdb)]
      constructor
      · intro heq
        have hcount : kept.countP (fun t => (env.items t.eventId).faults .buildCase = none) =
            kept.length :=
          List.countP_eq_length.mpr fun t ht => by simp [hbuilt t ((hmem t).mp ht).2]
        rw [← heq, hcases, hcount] at hkeptLength
        have hnil : kept = [] := List.eq_nil_of_length_eq_zero (by omega)
        rw [hnil] at heq
        refine .inr ⟨heq.symm, fun t ht hnone => ?_, hdb⟩
        have : t ∈ kept := (hmem t).mpr ⟨ht, hnone⟩
        simp [hnil] at this
      · rintro (hall | ⟨heq, hraise, -⟩)
        · obtain ⟨t, ht, hfault⟩ := hdb
          rcases hall t ht with hnone | ⟨e, he⟩
          · simp [hnone] at hfault
          · simp [hplain t e he] at hfault
        · have hnil : kept = [] :=
            List.eq_nil_iff_forall_not_mem.mpr fun t ht => hraise t ((hmem t).mp ht).1 ((hmem t).mp ht).2
          rw [hnil]
          exact heq.symm
    · have hnodb : ∀ t ∈ ts, targetFault rt config env w₁.db t ≠ some .database :=
        fun t ht hf => hdb ⟨t, ht, hf⟩
      obtain ⟨htsOpen, htsLength⟩ := settled_open hopen₁ hnodb
      simp only [htsOpen, Bool.false_eq_true, if_false, hdb, and_false, or_false]
      constructor
      · intro heq t ht
        by_contra hbad
        obtain ⟨hfault, hnoplain⟩ := not_or.mp hbad
        have hbuild : (env.items t.eventId).faults .buildCase = none := by
          cases hb : (env.items t.eventId).faults .buildCase with
          | none => rfl
          | some f =>
            cases f with
            | raises e => exact absurd ⟨e, hb⟩ hnoplain
            | database => exact absurd (by simp [targetFault, settleFault, hb]) (hnodb t ht)
        -- the target leaves a case that the other run does not have
        rw [heq, hkeptLength, List.countP_eq_countP_filter_add ts _ fun t =>
          (returned (settleOne rt config (env.items t.eventId) env.tie t) w₁).isSome, hkept]
          at htsLength
        refine absurd htsLength (Nat.ne_of_lt (Nat.add_lt_add_left (Nat.lt_add_of_pos_right ?_) _))
        refine List.countP_pos_iff.mpr ⟨t, List.mem_filter.mpr ⟨ht, ?_⟩, by simp [hbuild]⟩
        simpa using fun h : _ = true => hfault ((hreturns t).mp h)
      · intro hall
        rw [← hkept, settled_filter hopen₁ (fun t _ => hreturns t) hall]

/-- The case of the first event cannot be built. -/
def firstBuildFails : AssetPipelineEnv where
  items e := { faults := fun p => if e = 0 ∧ p = .buildCase then some (.raises .external) else none }

theorem firstBuildFails_fault {db : Db} {t : SettleTarget} (h : db.whitelistCandidates = []) :
    targetFault (sampleRuntime .free []) {} firstBuildFails db t = none ∨
      ∃ e, (firstBuildFails.items t.eventId).faults .buildCase = some (.raises e) := by
  by_cases ht : t.eventId = 0
  · exact .inr ⟨.external, by simp [firstBuildFails, ht]⟩
  · left
    have hpending (phash : String) : ¬ 2 ≤ pendingCandidates db phash := by
      simp [pendingCandidates, h]
    have hwhitelist : whitelistFault (sampleRuntime .free []) {}
        (firstBuildFails.items t.eventId) db t = none := by
      unfold whitelistFault
      rcases whitelistPattern (sampleRuntime .free []) {} t.conclusion with _ | ⟨wl, pattern, phash⟩
      · rfl
      · simp [hpending, firstBuildFails, ht]
    have hprofile : profileFault (sampleRuntime .free []) (firstBuildFails.items t.eventId) t =
        none := by
      simp [profileFault, firstBuildFails, ht]
    rw [targetFault, settleFault, hwhitelist, hprofile]
    simp [closingFault, firstBuildFails, ht]

theorem settlement_isolates_first :
    (exec (assetPipelineRun (sampleRuntime .free []) {} firstBuildFails none true)
        { db := concludedEvents 2 }).2.db =
      (exec (settlementRun (sampleRuntime .free []) {} firstBuildFails none true fun t =>
        (returned (settleOne (sampleRuntime .free []) {} (firstBuildFails.items t.eventId) id t)
          (exec (pickTargets {} id 20) { db := concludedEvents 2 }).2).isSome)
        { db := concludedEvents 2 }).2.db := by
  have hsome : (returned (pickTargets {} id 20) { db := concludedEvents 2 }).isSome = true := by
    decide +kernel
  have htargets := exec_of_returned (Option.some_get hsome).symm
  have hiff := settlement_isolates_iff (sampleRuntime .free []) firstBuildFails none true rfl rfl rfl
    rfl htargets
  refine hiff.mpr (.inr (.inl fun t _ => firstBuildFails_fault ?_))
  have hkeeps : Respects (Keeps Db.whitelistCandidates) (pickTargets {} id 20) :=
    pickTargets_respects fun _ => keeps_modify fun _ => rfl
  exact hkeeps { db := concludedEvents 2 }

/-- The dispositions of an event cannot be read after its case has been added. -/
def dispositionsFail : AssetPipelineEnv where
  items _ := { faults := fun p => if p = .dispositions then some (.raises .external) else none }

/-- The case of an event whose settlement raises is committed. -/
theorem failing_target_leaves_case :
    ¬ ((exec (assetPipelineRun (sampleRuntime .free []) { requireDispositionConfirm := true }
          dispositionsFail none true) { db := concludedEvents 1 }).2.db =
        (exec (settlementRun (sampleRuntime .free []) { requireDispositionConfirm := true }
          dispositionsFail none true fun t =>
            (returned (settleOne (sampleRuntime .free []) { requireDispositionConfirm := true }
              (dispositionsFail.items t.eventId) id t) { db := concludedEvents 1 }).isSome)
          { db := concludedEvents 1 }).2.db) := by
  intro h
  exact absurd (congrArg (·.judgmentCases.length) h) (by decide +kernel)

end Minsight

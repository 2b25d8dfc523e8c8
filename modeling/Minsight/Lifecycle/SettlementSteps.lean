import Minsight.Lifecycle.Invariants
import Minsight.Lifecycle.Refinement

/-! # Settlement moves the docket

A settlement run first closes the concluded events whose case is there already and collects
the others as targets; then it settles them one by one. Settling an event leaves the other
targets as they were, because each has its own event and its own investigation.
-/

namespace Minsight

open Tx Session Docket

variable {rt : Runtime} {config : DefenseAssetConfig}

/-- The event is concluded and the investigation it is settled with has no case yet. -/
structure Docket.Awaits (d : Docket) (e i : ℕ) : Prop where
  concluded : d.events[e]? = some .concluded
  selected : ∃ inv v, d.Selected e i inv v
  fresh : d.cases.count i = 0

theorem Docket.Awaits.file {d : Docket} {e i j : ℕ} (h : d.Awaits e i) (hj : j ≠ i) :
    Awaits { d with cases := d.cases ++ [j] } e i where
  concluded := h.concluded
  selected := by
    obtain ⟨inv, v, hs⟩ := h.selected
    exact ⟨inv, v, { hs with }⟩
  fresh := by simp [List.count_append, h.fresh, hj]

theorem Docket.Awaits.close {d : Docket} {e e' i : ℕ} (h : d.Awaits e i) (he : e' ≠ e) :
    Awaits { d with events := d.events.modify e' fun _ => .closed } e i where
  concluded := Rows.getElem?_update.mpr (.inr ⟨he, h.concluded⟩)
  selected := by
    obtain ⟨inv, v, hs⟩ := h.selected
    exact ⟨inv, v, { hs with }⟩
  fresh := h.fresh

theorem Docket.Awaits.ne {d : Docket} {e e' i i' : ℕ} (h : d.Awaits e i) (h' : d.Awaits e' i')
    (he : e ≠ e') : i ≠ i' := by
  rintro rfl
  obtain ⟨inv, v, hs⟩ := h.selected
  obtain ⟨inv', v', hs'⟩ := h'.selected
  obtain rfl : inv = inv' := Option.some.inj (hs.row.symm.trans hs'.row)
  exact he (hs.eventId.symm.trans hs'.eventId)

theorem verdictOf_docket {db : Db} {t : Time} {i : ℕ} {c : InvestigationConclusion}
    (h : db.conclusions.find? (fun c => c.investigationId == i) = some c) :
    (db.docket t).verdictOf i = some c.verdict := by
  have hfind : List.find? ((fun v => v.1 == i) ∘ fun c => (c.investigationId, c.verdict))
      db.conclusions = some c := h
  rw [verdictOf, Db.docket, List.find?_map, hfind]
  rfl

theorem latestSettleableInvestigation_selected {tie : ℕ → ℕ} {db : Db} {t : Time} {e i : ℕ}
    {c : InvestigationConclusion} (h : latestSettleableInvestigation tie db e = some (i, c)) :
    ∃ inv, (db.docket t).Selected e i inv c.verdict := by
  simp only [latestSettleableInvestigation, Option.bind_eq_bind, Option.bind_eq_some_iff,
    Prod.exists] at h
  obtain ⟨i', inv, hhead, c', hfind, hif⟩ := h
  split at hif
  · obtain ⟨rfl, rfl⟩ : i' = i ∧ c' = c := by simpa using hif
    obtain ⟨hmem, hlast⟩ := Rows.head_orderLimit hhead
    simp only [Rows.mem_select, Bool.and_eq_true, beq_iff_eq] at hmem
    refine ⟨inv.core, by simp [Db.docket, hmem.1], hmem.2.1, hmem.2.2, ?_,
      verdictOf_docket hfind, ‹_›⟩
    intro j core f hj he hs hf
    obtain ⟨inv', hj', rfl⟩ : ∃ inv', db.investigations[j]? = some inv' ∧ inv'.core = core := by
      simpa [Db.docket] using hj
    have hbefore := (hlast (j, inv') (by simpa [Rows.mem_select] using ⟨hj', he, hs⟩)).le
    have hfinished : inv'.finishedAt = some f := hf
    have hle : Rows.nullLow inv'.finishedAt ≤ Rows.nullLow inv.finishedAt :=
      (Prod.Lex.toLex_le_toLex.mp hbefore).elim le_of_lt fun h => h.1.le
    rw [hfinished] at hle
    exact Rows.some_le_nullLow hle
  · cases hif

theorem closeEvent_docket (e : ℕ) (w : World) : World.docket (exec (closeEvent e) w).2 =
    { w.docket with events := w.docket.events.modify e fun _ => .closed } := by
  have hevents := setStatus_status w.db.events e .closed
  simp [closeEvent, World.docket, Db.docket, Db.setEventStatus, hevents]

theorem closeEvent_simulates {A : Act → Prop} {e i : ℕ} {w : World}
    (hA : A (.closed config.requireDispositionConfirm))
    (hevent : w.docket.events[e]? = some .concluded)
    (hsel : ∃ inv v, w.docket.Selected e i inv v) (hcase : 0 < w.docket.cases.count i)
    (hres : config.requireDispositionConfirm = true → dispositionsResolved w.db i = true) :
    Simulates rt A w (exec (closeEvent e) w).2 := by
  obtain ⟨inv, v, hs⟩ := hsel
  rw [Simulates, closeEvent_docket]
  refine Steps.single hA (.closed hevent { hs with case := hcase, resolved := fun hc => ?_ })
  have hall := hres hc
  simp only [dispositionsResolved, List.all_filter, List.all_eq_true] at hall
  intro p hp hi
  obtain ⟨r, hr, rfl⟩ := List.mem_map.mp hp
  simpa [show r.investigationId = i from hi] using hall r hr

theorem casesCount_eq (db : Db) (t : Time) (i : ℕ) : (db.docket t).cases.count i =
    db.judgmentCases.countP fun c => c.investigationId == i := by
  simp [Db.docket, List.count, List.countP_map, Function.comp_def]

theorem shouldCloseEvent_resolved {db : Db} {i : ℕ} (h : shouldCloseEvent config db i = true)
    (hc : config.requireDispositionConfirm = true) : dispositionsResolved db i = true := by
  simpa [shouldCloseEvent, hc] using (Bool.and_eq_true_iff.mp h).2

/-- The targets have different events, and each still awaits its settlement. -/
structure TargetsAwait (d : Docket) (ts : List SettleTarget) : Prop where
  nodup : (ts.map (·.eventId)).Nodup
  awaits : ∀ t ∈ ts, d.Awaits t.eventId t.investigationId

/-- The events still to be looked at are concluded, and none of them is a target yet. -/
structure Collecting (d : Docket) (ts : List SettleTarget) (events : List (ℕ × Event)) :
    Prop extends TargetsAwait d ts where
  keys : (events.map Prod.fst).Nodup
  apart : ∀ t ∈ ts, t.eventId ∉ events.map Prod.fst
  concluded : ∀ x ∈ events, d.events[x.1]? = some .concluded

theorem Collecting.tail {d : Docket} {ts : List SettleTarget} {x : ℕ × Event}
    {events : List (ℕ × Event)} (h : Collecting d ts (x :: events)) : Collecting d ts events where
  toTargetsAwait := h.toTargetsAwait
  keys := (List.nodup_cons.mp h.keys).2
  apart t ht hmem := h.apart t ht (List.mem_cons_of_mem _ hmem)
  concluded y hy := h.concluded y (List.mem_cons_of_mem _ hy)

theorem Collecting.take {d : Docket} {ts : List SettleTarget} {x : ℕ × Event}
    {events : List (ℕ × Event)} {t : SettleTarget} (h : Collecting d ts (x :: events))
    (ht : t.eventId = x.1) (hawait : d.Awaits t.eventId t.investigationId) :
    Collecting d (ts ++ [t]) events where
  nodup := by
    rw [List.map_append, List.map_singleton]
    refine List.nodup_append.mpr ⟨h.nodup, List.nodup_singleton _, ?_⟩
    intro e he e' he' hee
    obtain ⟨u, hu, rfl⟩ := List.mem_map.mp he
    obtain rfl := List.mem_singleton.mp he'
    exact h.apart u hu (by simp [hee, ht])
  awaits u hu := by
    rcases List.mem_append.mp hu with hu | hu
    · exact h.awaits u hu
    · obtain rfl := List.mem_singleton.mp hu
      exact hawait
  keys := h.tail.keys
  apart u hu := by
    rcases List.mem_append.mp hu with hu | hu
    · exact h.tail.apart u hu
    · obtain rfl := List.mem_singleton.mp hu
      rw [ht]
      exact (List.nodup_cons.mp h.keys).1
  concluded := h.tail.concluded

theorem Collecting.close {d : Docket} {ts : List SettleTarget} {x : ℕ × Event}
    {events : List (ℕ × Event)} (h : Collecting d ts (x :: events)) :
    Collecting { d with events := d.events.modify x.1 fun _ => .closed } ts events where
  nodup := h.nodup
  awaits t ht := (h.awaits t ht).close fun he => h.apart t ht (by simp [he])
  keys := h.tail.keys
  apart := h.tail.apart
  concluded y hy := by
    refine Rows.getElem?_update.mpr (.inr ⟨fun he => ?_, h.tail.concluded y hy⟩)
    exact (List.nodup_cons.mp h.keys).1 (he ▸ List.mem_map_of_mem hy)

structure Collected (rt : Runtime) (confirm : Bool) (w : World)
    (s : Except Exn (List SettleTarget) × World) : Prop where
  steps : Simulates rt (· = .closed confirm) w s.2
  targets : ∀ ts, s.1 = .ok ts → TargetsAwait s.2.docket ts

theorem TargetsAwait.collected {confirm : Bool} {w : World} {ts : List SettleTarget}
    (h : TargetsAwait w.docket ts) : Collected rt confirm w (.ok ts, w) where
  steps := Steps.refl _
  targets _ hts := Except.ok.inj hts ▸ h

theorem collectTargets_collected {tie : ℕ → ℕ} {limit : ℕ} {ts : List SettleTarget}
    {events : List (ℕ × Event)} {w : World} (h : Collecting w.docket ts events) :
    Collected rt config.requireDispositionConfirm w
      (exec (collectTargets config tie limit ts events) w) := by
  induction events generalizing ts w with
  | nil => exact h.toTargetsAwait.collected
  | cons x events ih =>
    obtain ⟨e, event⟩ := x
    have hevent := h.concluded (e, event) List.mem_cons_self
    unfold collectTargets
    split
    · exact h.toTargetsAwait.collected
    · rw [exec_query_bind]
      split
      · exact ih h.tail
      · split
        · exact ih h.tail
        · rename_i i conclusion hlatest
          obtain ⟨inv, hsel⟩ := latestSettleableInvestigation_selected (t := w.out.clock) hlatest
          have hcount := casesCount_eq w.db w.out.clock i
          split
          · rename_i hzero
            refine ih (h.take rfl ⟨hevent, ⟨inv, _, hsel⟩, ?_⟩)
            exact hcount.trans hzero
          · rename_i hone
            split
            · rename_i hshould
              have hcase : 0 < w.docket.cases.count i := by
                rw [World.docket, hcount]
                exact Nat.lt_of_lt_of_eq Nat.one_pos hone.symm
              have hclose : Simulates rt (· = .closed config.requireDispositionConfirm) w
                  (exec (closeEvent e) w).2 :=
                closeEvent_simulates rfl hevent ⟨inv, _, hsel⟩ hcase
                  (shouldCloseEvent_resolved hshould)
              have hnext : Collecting (exec (closeEvent e) w).2.docket ts events := by
                rw [closeEvent_docket]
                exact h.close
              exact ⟨IsTrans.trans (r := Simulates rt _) _ _ _ hclose (ih hnext).steps,
                (ih hnext).targets⟩
            · exact ih h.tail
          · exact ⟨Steps.refl _, nofun⟩

theorem pickTargets_collected {tie : ℕ → ℕ} {limit : ℤ} {w : World} :
    Collected rt config.requireDispositionConfirm w (exec (pickTargets config tie limit) w) := by
  unfold pickTargets sqlLimit
  split
  · exact ⟨Steps.refl _, nofun⟩
  · rw [exec_bind_pure, exec_query_bind]
    refine collectTargets_collected {
      nodup := List.nodup_nil
      awaits := by simp
      keys := ?_
      apart := by simp
      concluded := fun x hx => ?_ }
    · have hkeys : ((w.db.events.select fun _ e => e.status == .concluded).map Prod.fst).Nodup :=
        Rows.select_keys_nodup _ _
      exact Rows.orderLimit_map_nodup Prod.fst hkeys
    · obtain ⟨e, event⟩ := x
      have hmem := Rows.mem_of_mem_orderLimit hx
      simp only [Rows.mem_select, beq_iff_eq] at hmem
      simp [World.docket, Db.docket, hmem]

/-- What settling one event does: the other targets stay as they were. -/
structure Settles (rt : Runtime) (confirm : Bool) (e : ℕ) (w w' : World) : Prop where
  steps : Simulates rt (fun a => a = .filed ∨ a = .closed confirm) w w'
  others : ∀ e' i', e' ≠ e → w.docket.Awaits e' i' → w'.docket.Awaits e' i'

abbrev SameDocket : World → World → Prop := fun w w' => w'.docket = w.docket

theorem settleStep_docket {fault : Option SettleFault} :
    Respects SameDocket (settleStep fault) := settleStep_respects fun _ => rfl

theorem addWhitelistCandidate_docket {env : SettleEnv} {t : SettleTarget} :
    Respects SameDocket (addWhitelistCandidate rt config env t) := by
  unfold addWhitelistCandidate
  split
  · exact respects_pure _
  · refine settleStep_docket.bind fun _ => (respects_query _).bind fun _ => ?_
    split
    · exact respects_write fun _ => rfl
    · exact respects_pure _
    · exact respects_raise _

theorem addProfileSuggestion_docket {env : SettleEnv} {t : SettleTarget} :
    Respects SameDocket (addProfileSuggestion rt env t) := by
  unfold addProfileSuggestion
  split
  · exact respects_pure _
  · refine settleStep_docket.bind fun _ => respects_write fun w => ?_
    simp only [SameDocket, World.docket]
    split <;> rfl

instance {confirm : Bool} {e : ℕ} : Std.Refl (Settles rt confirm e) where
  refl w := ⟨Steps.refl w.docket, fun _ _ _ => id⟩

instance {confirm : Bool} {e : ℕ} : IsTrans World (Settles rt confirm e) where
  trans _ _ _ h h' := ⟨Steps.trans h.steps h'.steps,
    fun e' i' he ha => h'.others e' i' he (h.others e' i' he ha)⟩

theorem SameDocket.settles {confirm : Bool} {e : ℕ} {w w' : World} (h : SameDocket w w') :
    Settles rt confirm e w w' where
  steps := by
    rw [Simulates, h]
    exact Steps.refl _
  others e' i' _ ha := by rwa [h]

theorem addCase_docket (case : JudgmentCase) (w : World) :
    World.docket (exec (Session.modify fun db => { db with
      judgmentCases := db.judgmentCases ++ [case] }) w).2 =
    { w.docket with cases := w.docket.cases ++ [case.investigationId] } := by
  simp [World.docket, Db.docket]

theorem embedCase_investigationId (env : SettleEnv) (case : JudgmentCase) :
    (embedCase config env case).investigationId = case.investigationId := by
  unfold embedCase
  split <;> rfl

theorem buildJudgmentCase_investigationId (tie : ℕ → ℕ) (db : Db) (t : SettleTarget) :
    (buildJudgmentCase rt tie db t.investigationId t.eventId t.event t.conclusion).investigationId =
      t.investigationId := rfl

theorem addCase_settles {confirm : Bool} {e i : ℕ} {w w₁ w₂ : World} (h : w.docket.Awaits e i)
    (hw₁ : w₁.docket = w.docket)
    (hw₂ : w₂.docket = { w.docket with cases := w.docket.cases ++ [i] }) :
    Settles rt confirm e w₁ w₂ where
  steps := by
    rw [Simulates, hw₁, hw₂]
    exact Steps.single (.inl rfl) (.filed h.fresh)
  others e' i' he ha := by
    rw [hw₁] at ha
    rw [hw₂]
    exact ha.file (h.ne ha he.symm)

theorem closeSettled_settles {env : SettleEnv} {t : SettleTarget} {w : World}
    (hevent : w.docket.events[t.eventId]? = some .concluded)
    (hsel : ∃ inv v, w.docket.Selected t.eventId t.investigationId inv v)
    (hcase : 0 < w.docket.cases.count t.investigationId) :
    Settles rt config.requireDispositionConfirm t.eventId w
      (exec (closeSettled config env t) w).2 := by
  have close (w' : World) (hw : w'.docket = w.docket)
      (hres : config.requireDispositionConfirm = true →
        dispositionsResolved w'.db t.investigationId = true) :
      Settles rt config.requireDispositionConfirm t.eventId w' (exec (closeEvent t.eventId) w').2 := by
    refine ⟨closeEvent_simulates (Or.inr rfl) (hw ▸ hevent) (hw ▸ hsel) (hw ▸ hcase) hres, ?_⟩
    intro e' i' he ha
    rw [closeEvent_docket]
    exact ha.close he.symm
  unfold closeSettled
  split
  · split
    · refine rel_bind (settleStep_docket w).settles fun _ w₁ hstep => ?_
      have hw₁ : w₁.docket = w.docket := settleStep_docket.of_exec hstep
      rw [exec_query_bind]
      split
      · exact close w₁ hw₁ fun _ => ‹_›
      · exact Std.Refl.refl w₁
    · exact close w rfl fun hc => absurd hc ‹_›
  · exact Std.Refl.refl w

theorem settleOne_settles {env : SettleEnv} {tie : ℕ → ℕ} {t : SettleTarget} {w : World}
    (h : w.docket.Awaits t.eventId t.investigationId) :
    Settles rt config.requireDispositionConfirm t.eventId w
      (exec (settleOne rt config env tie t) w).2 := by
  refine rel_bind (settleStep_docket w).settles fun _ w₁ h₁ => ?_
  have hw₁ : w₁.docket = w.docket := settleStep_docket.of_exec h₁
  rw [exec_query_bind]
  have hcase := addCase_docket (embedCase config env (buildJudgmentCase rt tie w₁.db
    t.investigationId t.eventId t.event t.conclusion)) w₁
  rw [embedCase_investigationId, buildJudgmentCase_investigationId, hw₁] at hcase
  refine rel_bind (addCase_settles h hw₁ hcase) fun _ w₂ h₂ => ?_
  have hw₂ : w₂.docket = { w.docket with cases := w.docket.cases ++ [t.investigationId] } := by
    rwa [h₂] at hcase
  refine rel_bind (addWhitelistCandidate_docket w₂).settles fun _ w₃ h₃ => ?_
  have hw₃ : w₃.docket = w₂.docket := addWhitelistCandidate_docket.of_exec h₃
  refine rel_bind (addProfileSuggestion_docket w₃).settles fun _ w₄ h₄ => ?_
  have hw₄ : w₄.docket = w₃.docket := addProfileSuggestion_docket.of_exec h₄
  refine rel_bind (SameDocket.settles rfl) fun _ w₅ h₅ => ?_
  have hw₅ : w₅.docket = w₄.docket := by
    cases h₅
    rfl
  have hw : w₅.docket = { w.docket with cases := w.docket.cases ++ [t.investigationId] } :=
    hw₅.trans (hw₄.trans (hw₃.trans hw₂))
  refine closeSettled_settles (hw ▸ h.concluded) ?_ ?_
  · obtain ⟨inv, v, hs⟩ := h.selected
    rw [hw]
    exact ⟨inv, v, { hs with }⟩
  · rw [hw]
    simp [List.count_append]

theorem exec_settleAll_cons (env : AssetPipelineEnv) (result : AssetPipelineResult)
    (t : SettleTarget) (ts : List SettleTarget) (w : World) :
    ∃ result', exec (settleAll rt config env result (t :: ts)) w =
      exec (settleAll rt config env result' ts)
        (exec (settleOne rt config (env.items t.eventId) env.tie t) w).2 := by
  rw [settleAll, exec_bind_attempt]
  split
  · exact ⟨_, rfl⟩
  · exact ⟨_, rfl⟩

theorem settleAll_simulates {env : AssetPipelineEnv} {result : AssetPipelineResult}
    {ts : List SettleTarget} {w : World} (h : TargetsAwait w.docket ts) :
    Simulates rt (fun a => a = .filed ∨ a = .closed config.requireDispositionConfirm) w
      (exec (settleAll rt config env result ts) w).2 := by
  induction ts generalizing w result with
  | nil => exact Steps.refl _
  | cons t ts ih =>
    obtain ⟨hne, hnodup⟩ := List.nodup_cons.mp h.nodup
    obtain ⟨result', hrest⟩ := exec_settleAll_cons env result t ts w
    rw [hrest]
    have hone : Settles rt config.requireDispositionConfirm t.eventId w
        (exec (settleOne rt config (env.items t.eventId) env.tie t) w).2 :=
      settleOne_settles (h.awaits t List.mem_cons_self)
    refine IsTrans.trans (r := Simulates rt _) _ _ _ hone.steps (ih ⟨hnodup, fun u hu => ?_⟩)
    have hmem : u.eventId ∈ ts.map (·.eventId) := List.mem_map_of_mem hu
    refine hone.others _ _ (fun he => ?_) (h.awaits u (List.mem_cons_of_mem _ hu))
    rw [he] at hmem
    exact hne hmem

theorem assetPipelineRun_simulates {env : AssetPipelineEnv} {limit : Option ℤ} {useLock : Bool} :
    Respects (Simulates rt fun a => a = .filed ∨ a = .closed config.requireDispositionConfirm)
      (assetPipelineRun rt config env limit useLock) := by
  intro w
  refine simulates_transaction_at ?_
  split
  · exact Steps.refl _
  split
  · exact Steps.refl _
  refine rel_bind (respects_fallible _ w) fun _ w₁ _ => ?_
  have hpick : Collected rt config.requireDispositionConfirm w₁
      (exec (pickTargets config env.tie (limitOr limit config.batchSize)) w₁) :=
    pickTargets_collected
  refine rel_bind (hpick.steps.mono fun _ => Or.inr) fun ts w₂ h₂ => ?_
  rw [h₂] at hpick
  refine rel_bind (settleAll_simulates (hpick.targets ts rfl)) fun result w₃ _ => ?_
  exact commitRun_respects.bind (fun _ => respects_pure _) w₃

theorem decideDisposition_simulates {now : Time} {commitFault : Option Exn} {recordId : ℕ}
    {decision : Time → DispositionRecord → DispositionRecord} {s : DispositionStatus}
    (hs : s ≠ .suggested) (h : ∀ t r, (decision t r).status = s ∧
      (decision t r).investigationId = r.investigationId) :
    Respects (Simulates rt (· = .decided))
      (decideDisposition rt now commitFault recordId decision) := by
  refine simulates_transaction ((respects_query _).bind fun db => ?_)
  split
  · split
    · refine (simulates_utcNow _).bind fun decidedAt => Respects.bind (simulates_modify (A := (· = .decided))
        rfl fun db t => ?_) fun _ => (respects_fallible _).bind fun _ => respects_pure _
      have hrecords : (db.dispositionRecords.modify recordId (decision decidedAt)).map
          (fun r => (r.investigationId, r.status)) = (db.dispositionRecords.map
            fun r => (r.investigationId, r.status)).modify recordId fun p => (p.1, s) := by
        refine Rows.map_update fun r => ?_
        rw [(h decidedAt r).1, (h decidedAt r).2]
      have hd : Db.docket { db with
          dispositionRecords := db.dispositionRecords.modify recordId (decision decidedAt) } t =
          { db.docket t with
            dispositions := (db.docket t).dispositions.modify recordId fun p => (p.1, s) } := by
        simp only [Db.docket, hrecords]
      rw [hd]
      exact .decided hs
    · exact respects_pure _
  · exact respects_pure _

theorem confirmDisposition_simulates {now : Time} {commitFault : Option Exn} {recordId : ℕ}
    {action : Option String} {confirmedById : Option ℕ} : Respects (Simulates rt (· = .decided))
      (confirmDisposition rt now commitFault recordId action confirmedById) := by
  have hs : DispositionStatus.confirmed ≠ .suggested := nofun
  exact decideDisposition_simulates hs fun _ _ => ⟨rfl, rfl⟩

theorem rejectDisposition_simulates {now : Time} {commitFault : Option Exn} {recordId : ℕ} :
    Respects (Simulates rt (· = .decided)) (rejectDisposition rt now commitFault recordId) := by
  have hs : DispositionStatus.rejected ≠ .suggested := nofun
  exact decideDisposition_simulates hs fun _ _ => ⟨rfl, rfl⟩

end Minsight

import Minsight.Lifecycle.Docket
import Minsight.System.Frames

/-! # The services move the docket

The docket of a world is read off its tables. Every service, whatever it is told by the
outside world and however it ends, moves the docket by steps of the kinds its label names.
-/

namespace Minsight

open Tx Session Docket ClockKind

def HumanReviewRequest.core (r : HumanReviewRequest) : RequestCore where
  investigationId := r.investigationId
  eventId := r.eventId
  status := r.status

def Db.docket (db : Db) (clock : Time) : Docket where
  events := db.events.map (·.status)
  investigations := db.investigations.map (·.core)
  verdicts := db.conclusions.map fun c => (c.investigationId, c.verdict)
  requests := db.requests.map (·.core)
  dispositions := db.dispositionRecords.map fun r => (r.investigationId, r.status)
  cases := db.judgmentCases.map (·.investigationId)
  clock := clock

def World.docket (w : World) : Docket := w.db.docket w.out.clock

theorem setStatus_status (events : Rows Event) (e : ℕ) (s : EventStatus) :
    (events.modify e fun ev => { ev with status := s }).map (·.status) =
      (events.map (·.status)).modify e fun _ => s :=
  Rows.map_update fun _ => rfl

/-- The tables the docket is read off. -/
abbrev Db.files (db : Db) : Docket := db.docket 0

theorem docket_eq_of_files {db db' : Db} (h : db'.files = db.files) (t : Time) :
    db'.docket t = db.docket t := by
  have ht : ∀ db : Db, db.docket t = { db.files with clock := t } := fun _ => rfl
  rw [ht, ht, h]

def Simulates (rt : Runtime) (A : Act → Prop) (w w' : World) : Prop :=
  Steps rt.clock A w.docket w'.docket

variable {rt : Runtime} {A B : Act → Prop} {α : Type}

instance : Std.Refl (Simulates rt A) where
  refl w := Steps.refl w.docket

instance : IsTrans World (Simulates rt A) where
  trans _ _ _ h h' := Steps.trans h h'

theorem Simulates.mono {w w' : World} (h : Simulates rt A w w') (hAB : ∀ a, A a → B a) :
    Simulates rt B w w' :=
  Steps.mono h hAB

theorem Leaves.simulates {w w' : World} (h : Leaves rt Db.files w w') : Simulates rt A w w' := by
  have hw : w'.docket = { w.docket with clock := w'.out.clock } := docket_eq_of_files h.db _
  rw [Simulates, hw]
  exact Steps.tick h.clock

theorem allowsClock_simulates : AllowsClock rt (Simulates rt A) := fun w shown =>
  Steps.tick (rt.clock.reading_follows w.out.clock shown).passes

theorem simulates_utcNow (shown : Time) : Respects (Simulates rt A) (utcNow rt shown) :=
  allowsClock_simulates.utcNow shown

theorem simulates_setRedis {f : Outside → Outside} (h : ∀ o, (f o).clock = o.clock) :
    Respects (Simulates rt A) (setRedis f) := by
  intro w
  have hw : World.docket { w with out := f w.out } = w.docket := by
    rw [World.docket, h]
    rfl
  change Steps rt.clock A w.docket (World.docket { w with out := f w.out })
  rw [hw]
  exact Steps.refl _

theorem simulates_silent {f : Db → Db} (h : ∀ db, (f db).files = db.files) :
    Respects (Simulates rt A) (modify f) := fun w =>
  Leaves.simulates (leaves_modify h w)

theorem simulates_modify {a : Act} (ha : A a) {f : Db → Db}
    (h : ∀ db t, Step rt.clock a (db.docket t) ((f db).docket t)) :
    Respects (Simulates rt A) (modify f) := fun w => Steps.single ha (h w.db w.out.clock)

/-- A block moves the docket as the program in it does, or only the clock passes. -/
theorem simulates_transaction_at {m : Session α} {w : World}
    (hm : Simulates rt A w (exec m w).2) : Simulates rt A w (exec (transaction m) w).2 := by
  rw [transaction, exec_atomically]
  rcases h : exec m w with ⟨e | a, w'⟩
  · rw [h] at hm
    exact Steps.tick hm.passes
  · rw [h] at hm
    exact hm

theorem simulates_transaction {m : Session α} (hm : Respects (Simulates rt A) m) :
    Respects (Simulates rt A) (transaction m) := fun w => simulates_transaction_at (hm w)

theorem simulates_loop {ι τ ρ : Type} {L : Loop Exn World ι τ ρ}
    (hok : ∀ i w t w', exec (L.body i) w = (.ok t, w') → Simulates rt A w w')
    (herr : ∀ i w e w', exec (L.body i) w = (.error e, w') →
      rt.clock.Passes w.out.clock w'.out.clock)
    (hr : L.rollback = rollback) {is : List ι} {r : ρ} :
    Respects (Simulates rt A) (L.run is r) := by
  refine Loop.respects_run hok fun i w e w' h => ?_
  rw [hr]
  exact Steps.tick (herr i w e w' h)

theorem runBatch_leaves {source : ℕ} {env : IngestBatchEnv} :
    Respects (Leaves rt Db.files) (runBatch rt source env) := by
  refine leaves_transaction ((respects_fallible _).bind fun _ => (leaves_utcNow _).bind fun now =>
    (respects_query _).bind fun before => ?_)
  exact Respects.bind (leaves_modify fun _ => rfl) fun _ =>
    (respects_fallible _).bind fun _ => respects_pure _

theorem runForSource_leaves {env : IngestRunEnv} {source maxBatches : ℕ} {useLock : Bool} :
    Respects (Leaves rt Db.files) (runForSource rt env source maxBatches useLock) :=
  runForSource_respects fun _ => runBatch_leaves

theorem auditSampleRun_leaves {β : Type} {f : Db → β}
    (hf : ∀ (db : Db) samples, f { db with auditSamples := samples } = f db) {enabled : Bool}
    {env : AuditSampleEnv} {limit : ℤ} :
    Respects (Leaves rt f) (auditSampleRun enabled env limit) := by
  refine leaves_transaction ?_
  split
  · exact respects_pure _
  · refine (respects_sqlLimit _).bind fun n => (respects_fallible _).bind fun _ =>
      (respects_query _).bind fun chosen => Respects.bind (leaves_modify fun db => hf db _) fun _ => ?_
    split
    · exact (respects_fallible _).bind fun _ => respects_pure _
    · exact respects_pure _

section

variable {config : AggregationConfig} {tie : ℕ → ℕ}

theorem recordLink_files (item : PendingAlert) (eventId : ℕ) (now : Time) (maxSeverity : ℤ)
    (db : Db) : (recordLink item eventId now maxSeverity db).files = db.files := by
  have hstatus : (db.events.modify eventId (updateEventStats item.alert item.triage
      maxSeverity)).map (·.status) = db.events.map (·.status) := Rows.map_update_eq fun _ => rfl
  simp only [recordLink, Db.docket, hstatus]

theorem eventFor_simulates {env : AggregationEnv} {alert : Alert} {dims : AggregationDimensions} :
    Respects (Simulates rt (· = .opened)) (eventFor rt env tie alert dims) := by
  refine (respects_fallible _).bind fun _ => (respects_query _).bind fun events => ?_
  split
  · exact respects_pure _
  · refine (simulates_utcNow _).bind fun createdAt => (respects_fallible _).bind fun _ =>
      Respects.bind (simulates_modify (A := (· = .opened)) rfl fun db t => ?_) fun _ => respects_pure _
    have hd : Db.docket { db with events := db.events ++ [newEvent alert dims createdAt] } t =
        { db.docket t with events := (db.docket t).events ++ [.pendingReview] } := by
      simp [Db.docket, newEvent]
    rw [hd]
    exact .opened

theorem aggregateOne_simulates {env : AggregationEnv} {item : PendingAlert} :
    Respects (Simulates rt (· = .opened)) (aggregateOne rt config env tie item) := by
  refine (simulates_utcNow _).bind fun now => ?_
  split
  · exact respects_raise _
  · refine eventFor_simulates.bind fun target => (respects_fallible _).bind fun _ =>
      (respects_query _).bind fun maxSeverity => (respects_query _).bind fun linked => ?_
    split
    · exact respects_raise _
    · exact Respects.bind (simulates_silent fun db => recordLink_files _ _ _ _ db) fun _ =>
        respects_pure _

theorem aggregationRun_simulates {env : AggregationRunEnv} {limit : Option ℤ} {useLock : Bool} :
    Respects (Simulates rt (· = .opened)) (aggregationRun rt config env limit useLock) := by
  have body (item : PendingAlert) : Respects (Simulates rt (· = .opened))
      ((aggregationLoop rt config env).body item) :=
    aggregateOne_simulates.bind fun _ => (respects_fallible _).bind fun _ => respects_pure _
  unfold aggregationRun
  split
  · exact respects_pure _
  · refine (respects_sqlLimit _).bind fun n => (respects_fallible _).bind fun _ =>
      (respects_query _).bind fun pending => simulates_loop (fun item _ _ _ h => (body item).of_exec h)
      (fun item w e w' h => ?_) rfl
    have hw : Simulates rt (· = .opened) w w' := (body item).of_exec h
    exact hw.passes

end

section

variable {config : InvestigationConfig} {tie : ℕ → ℕ}

theorem allowsAgent_files (investigationId eventId : ℕ) :
    AllowsAgent rt (Leaves rt Db.files) investigationId eventId where
  clock := allowsClock_leaves
  investigation f hf := leaves_modify fun db => by
    have hcore : (db.investigations.modify investigationId f).map (·.core) =
        db.investigations.map (·.core) := Rows.map_update_eq hf
    simp only [Db.docket, hcore]
  message _ := leaves_modify fun _ => rfl
  toolCall _ := leaves_modify fun _ => rfl
  correlate key related := leaves_modify fun db => by
    have hstatus : (db.events.modify eventId (applyCorrelation key related)).map (·.status) =
        db.events.map (·.status) := Rows.map_update_eq fun _ => rfl
    simp only [Db.docket, hstatus]
  observe _ := leaves_setRedis fun _ => ⟨rfl, rfl, rfl⟩
  fail := failTransaction_respects fun _ => ⟨rfl, rfl, rfl, .refl _ _⟩

theorem map_retires {f : HumanReviewRequest → HumanReviewRequest}
    (h : ∀ r : HumanReviewRequest, r.core.Retires (f r).core) (rs : Rows HumanReviewRequest) :
    List.Forall₂ RequestCore.Retires (rs.map (·.core)) ((rs.map f).map (·.core)) := by
  simp only [List.map_map, List.forall₂_map_left_iff, List.forall₂_map_right_iff,
    List.forall₂_same]
  exact fun r _ => h r

theorem withStatus_retires (status : HumanReviewStatus) (hs : status ≠ .sent)
    (ha : status ≠ .answered) {r : HumanReviewRequest} (hr : r.status = .sent) :
    r.core.Retires (r.withStatus status).core where
  investigationId := rfl
  eventId := rfl
  status h := absurd h hs
  answered := iff_of_false ha fun h : r.status = .answered => by rw [hr] at h; cases h

theorem cancelObsoleteForEvent_retires (e i : ℕ) (s : EventStatus) (r : HumanReviewRequest) :
    r.core.Retires (cancelObsoleteForEvent e i s r).core := by
  unfold cancelObsoleteForEvent
  split
  · rename_i h
    exact withStatus_retires .cancelled nofun nofun h.2.1
  · exact .refl _

def AgentLoopResult.outcome (result : AgentLoopResult) : Outcome where
  status := finalStatus result
  verdict := result.conclusion.verdict
  suggests := (truthyText result.conclusion.recommendedAction).isSome

theorem AgentLoopResult.outcome_complete {result : AgentLoopResult} (h : CompletedOrHuman result) :
    result.outcome.Complete := by
  change finalStatus result = if verdictEventStatus result.conclusion.verdict = .humanPending then
    .needsHuman else .completed
  split
  · rename_i hc
    exact if_pos hc
  · rename_i hc
    exact finalStatus_of_concluded h hc

theorem suggestedDispositions_files (i : ℕ) (action : Option String) :
    (suggestedDispositions i action).map (fun r => (r.investigationId, r.status)) =
      if (truthyText action).isSome then [(i, .suggested)] else [] := by
  unfold suggestedDispositions
  cases truthyText action <;> rfl

theorem startInvestigation_ok {env : InvestigationEnv} {e i : ℕ} {w w' : World}
    (h : exec (startInvestigation rt config env e) w = (.ok i, w')) :
    i = w.db.investigations.length ∧ ∃ s, rt.clock.Follows w.out.clock s ∧ w'.out.clock = s ∧
      w'.db = (w.db.addInvestigation (newInvestigation config e s)).setEventStatus e
        .investigating := by
  simp only [startInvestigation, exec_utcNow_bind, exec_query_bind, exec_modify_bind,
    exec_fallible_bind_ok, exec_pure, Prod.mk.injEq, Except.ok.injEq] at h
  obtain ⟨-, -, -, rfl, rfl⟩ := h
  exact ⟨rfl, _, rt.clock.reading_follows _ _, rfl, rfl⟩

theorem newInvestigation_core (e : ℕ) (s : Time) :
    (newInvestigation config e s).core = ⟨e, .running, s, none⟩ := rfl

theorem recordOutcome_docket {db db' : Db} {e : ℕ} {s f t : Time} {result : AgentLoopResult}
    (hdb : db'.files = ((db.addInvestigation (newInvestigation config e s)).setEventStatus e
      .investigating).files) :
    (recordOutcome db.investigations.length e f result db').docket t =
      { (db.docket t).investigate e s f result.outcome with
        requests := (db'.requests.map (cancelObsoleteForEvent e db.investigations.length
          (verdictEventStatus result.conclusion.verdict))).map (·.core) } := by
  simp only [Db.docket, Docket.mk.injEq, Db.setEventStatus, Db.addInvestigation] at hdb
  obtain ⟨hevents, hinvs, hverdicts, -, hdisp, hcases, -⟩ := hdb
  have hev : (db'.events.modify e fun ev => { ev with
      status := verdictEventStatus result.conclusion.verdict }).map (·.status) =
      (db.events.map (·.status)).modify e fun _ => verdictEventStatus result.conclusion.verdict := by
    rw [setStatus_status, hevents, setStatus_status, List.modify_modify_eq]
    rfl
  have hinv : (db'.investigations.modify db.investigations.length fun i => { i with
      status := finalStatus result, finishedAt := some f }).map (·.core) =
      db.investigations.map (·.core) ++ [⟨e, finalStatus result, s, some f⟩] := by
    have hend : ∀ i : Investigation, ({ i with
        status := finalStatus result, finishedAt := some f } : Investigation).core =
        i.core.ended (finalStatus result) f := fun _ => rfl
    have hlen : (db.investigations.map (·.core)).length = db.investigations.length :=
      List.length_map _
    rw [Rows.map_update hend, hinvs, List.map_append, ← hlen, List.map_singleton,
      Rows.update_insert, newInvestigation_core]
    rfl
  simp [recordOutcome, Db.docket, Docket.investigate, hev, hinv, hdisp, hverdicts, hcases,
    conclusionRow, AgentLoopResult.outcome, suggestedDispositions_files]

theorem investigateEvent_ok {env : InvestigationEnv} {e start : ℕ} {w w' : World}
    (h : exec (investigateEvent rt config env tie e) w = (.ok start, w')) :
    ∃ s f result db', rt.clock.Follows w.out.clock s ∧ rt.clock.Follows s f ∧ w'.out.clock = f ∧
      CompletedOrHuman result ∧
      db'.files = ((w.db.addInvestigation (newInvestigation config e s)).setEventStatus e
        .investigating).files ∧
      e < w.db.events.length ∧
      w'.db = recordOutcome w.db.investigations.length e f result db' := by
  obtain ⟨i, w₁, hstart, h⟩ := exec_bind_ok.mp h
  obtain ⟨rfl, s, hs, hclock₁, hdb₁⟩ := startInvestigation_ok hstart
  rw [exec_query_bind] at h
  split at h
  · simp at h
  · rename_i event hevent
    obtain ⟨_, w₂, hsop, h⟩ := exec_bind_ok.mp h
    obtain ⟨_, w₃, hlog, h⟩ := exec_bind_ok.mp h
    obtain ⟨loopResult, w₄, hagent, h⟩ := exec_bind_ok.mp h
    simp only [exec_statement_bind_ok, exec_fallible_bind_ok, exec_query_bind, exec_utcNow_bind,
      exec_modify_bind, exec_pure, Prod.mk.injEq] at h
    obtain ⟨-, -, -, -, rfl⟩ := h
    have allows : AllowsAgent rt (Leaves rt Db.files) w.db.investigations.length e :=
      allowsAgent_files _ _
    have lsop : Leaves rt Db.files w₁ w₂ := by
      refine Respects.of_exec (allows.investigation _ ?_) hsop
      exact fun _ => rfl
    have klog : Keeps Db.files w₂ w₃ := logAgentStart_respects.of_exec hlog
    have plog : ClockPasses rt w₂ w₃ := logAgentStart_passes.of_exec hlog
    have lagent : Leaves rt Db.files w₃ w₄ := (agentRun_respects allows).of_exec hagent
    have hdb := (lagent.db.trans (klog.trans lsop.db)).trans (congrArg Db.files hdb₁)
    have hclock := lsop.clock.trans (Passes.trans plog lagent.clock)
    have hloop : CompletedOrHuman loopResult := agentRun_returns _ _ _ hagent
    have hfinish := rt.clock.reading_follows w₄.out.clock env.finishedAt
    have hlength : e < w.db.events.length := by
      have hlt := Rows.lt_of_getElem? hevent
      rw [id, hdb₁] at hlt
      simpa [Db.setEventStatus, Db.addInvestigation] using hlt
    exact ⟨s, _, _, w₄.db, hs, hclock₁ ▸ hclock.follows hfinish, rfl,
      supervised_completedOrHuman hloop, hdb, hlength, rfl⟩

theorem investigateEvent_step {env : InvestigationEnv} {e start : ℕ} {w w' : World}
    (h : exec (investigateEvent rt config env tie e) w = (.ok start, w')) :
    Step rt.clock .investigated w.docket w'.docket := by
  obtain ⟨s, f, result, db', hs, hf, hclock, hresult, hfiles, -, hdb⟩ := investigateEvent_ok h
  rw [World.docket, World.docket, hdb, hclock, recordOutcome_docket hfiles]
  refine Step.investigated hs hf (.refl _ _) (AgentLoopResult.outcome_complete hresult) ?_
  have hrequests : db'.requests.map (·.core) = w.db.requests.map (·.core) :=
    congrArg Docket.requests hfiles
  simp only [Db.docket, ← hrequests]
  exact map_retires (cancelObsoleteForEvent_retires _ _ _) _

theorem investigateAndCount_simulates {env : InvestigationEnv} {e : ℕ} {w w' : World} {u : Unit}
    (h : exec (investigateAndCount rt config env tie e) w = (.ok u, w')) :
    Simulates rt (· = .investigated) w w' := by
  obtain ⟨start, w₁, hinv, h⟩ := exec_bind_ok.mp h
  refine IsTrans.trans (r := Simulates rt (· = .investigated)) _ _ _
    (Steps.single rfl (investigateEvent_step hinv)) ?_
  refine Respects.of_exec ((respects_fallible _).bind fun _ => (respects_query _).bind fun _ => ?_) h
  split
  · refine Respects.bind ?_ fun skipped => ?_
    · refine (simulates_utcNow _).bind fun _ => (respects_fallible _).bind fun _ =>
        (respects_redis _).bind fun _ => ?_
      split
      · exact (respects_fallible _).bind fun _ =>
          Respects.bind (simulates_setRedis fun _ => rfl) fun _ => respects_pure _
      · exact respects_pure _
    · split
      · refine Respects.bind ?_ fun _ => respects_fallible _
        refine (simulates_utcNow _).bind fun _ => (respects_fallible _).bind fun _ =>
          (respects_redis _).bind fun _ =>
          Respects.bind (simulates_setRedis fun _ => rfl) fun _ => ?_
        split
        · exact respects_fallible _
        · exact respects_pure _
      · exact respects_fallible _
  · exact respects_fallible _

theorem investigationRun_simulates {env : InvestigationRunEnv} {limit : Option ℤ}
    {useLock : Bool} :
    Respects (Simulates rt (· = .investigated)) (investigationRun rt config env limit useLock) := by
  unfold investigationRun
  split
  · exact respects_pure _
  · refine Respects.bind ?_ fun remaining => ?_
    · exact (simulates_utcNow _).bind fun _ => (respects_redis _).bind fun _ => respects_pure _
    · split
      · exact respects_pure _
      · exact (respects_sqlLimit _).bind fun _ => (respects_fallible _).bind fun _ =>
          (respects_query _).bind fun _ => simulates_loop
            (fun _ _ _ _ hb => investigateAndCount_simulates hb)
            (fun _ _ _ _ hb => investigateAndCount_passes.of_exec hb) rfl

end

end Minsight

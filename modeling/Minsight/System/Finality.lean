import Minsight.Lifecycle.Turns
import Minsight.System.AlertLifecycle
import Minsight.System.Budget
import Minsight.System.ClosingLaw
import Minsight.System.ProbeIsolation
import Minsight.System.Reinvestigation

/-! # What becomes of an event for good

The queue is the only place the services take events from. So an event that is not in it is
investigated no more, and one that is in it beside a completed investigation is never taken.
-/

namespace Minsight

open Tx Session Docket

def TakesTurns (rt : Runtime) (p : EventFile → Prop) (w w' : World) : Prop :=
  Turns rt.clock p w.docket w'.docket

variable {rt : Runtime} {p : EventFile → Prop}

instance : Std.Refl (TakesTurns rt p) where
  refl _ := Relation.ReflTransGen.refl

instance : IsTrans World (TakesTurns rt p) where
  trans _ _ _ := Relation.ReflTransGen.trans

theorem Simulates.takesTurns {A : Act → Prop} {w w' : World} (h : Simulates rt A w w')
    (hi : ¬A .investigated) (ha : ∀ reopen, ¬A (.answered reopen)) : TakesTurns rt p w w' :=
  turns_of_steps hi ha h

theorem Leaves.takesTurns {w w' : World} (h : Leaves rt Db.files w w') : TakesTurns rt p w w' :=
  (Leaves.simulates (A := fun _ => False) h).takesTurns id fun _ => id

theorem TakesTurns.tick {w w' : World} (hdb : w'.db = w.db)
    (hclock : rt.clock.Passes w.out.clock w'.out.clock) : TakesTurns rt p w w' :=
  Simulates.takesTurns (A := fun _ => False)
    (by
      rw [Simulates, World.docket, World.docket, hdb]
      exact Steps.tick hclock) id fun _ => id

theorem takesTurns_transaction {α : Type} {m : Session α} {w : World}
    (ok : ∀ a w', exec m w = (.ok a, w') → rt.clock.Passes w.out.clock w'.out.clock →
      TakesTurns rt p w w')
    (passes : ClockPasses rt w (exec (transaction m) w).2) :
    TakesTurns rt p w (exec (transaction m) w).2 := by
  rw [transaction, exec_atomically] at passes ⊢
  rcases h : exec m w with ⟨e | a, w'⟩
  · rw [h] at passes
    exact TakesTurns.tick rfl passes
  · rw [h] at passes
    exact ok a w' h passes

section

variable {config : InvestigationConfig} {tie : ℕ → ℕ}

/-- The event has left the queue, and the files of the others are as they were. -/
structure Served (e : ℕ) (d d' : Docket) : Prop where
  length : d'.events.length = d.events.length
  left : ¬(d'.file e).Queued
  others : ∀ e', e ≠ e' → d'.file e' = d.file e'

theorem investigateEvent_due {env : InvestigationEnv} {e start : ℕ} {w w' : World}
    (due : p (w.docket.file e))
    (h : exec (investigateEvent rt config env tie e) w = (.ok start, w')) :
    Due rt.clock p w.docket w'.docket ∧ Served e w.docket w'.docket := by
  obtain ⟨s, f, result, db', hs, hf, hclock, hresult, hfiles, -, hdb⟩ := investigateEvent_ok h
  have hrequests : db'.requests.map (·.core) = w.db.requests.map (·.core) :=
    congrArg Docket.requests hfiles
  have hd : w'.docket = { w.docket.investigate e s f result.outcome with
      requests := (db'.requests.map (cancelObsoleteForEvent e w.db.investigations.length
        (verdictEventStatus result.conclusion.verdict))).map (·.core)
      clock := f } := by
    rw [World.docket, World.docket, hdb, hclock, recordOutcome_docket hfiles]
    rfl
  rw [hd]
  refine ⟨.investigated due hs hf (.refl _ _) (AgentLoopResult.outcome_complete hresult) ?_,
    List.length_modify _ _ _, fun hqueued => ?_, fun e' hne => ?_⟩
  · change List.Forall₂ _ (w.db.requests.map (·.core)) _
    rw [← hrequests]
    exact map_retires (cancelObsoleteForEvent_retires _ _ _) _
  · obtain ⟨-, _, -, hstatus⟩ | ⟨hne, -⟩ := Rows.getElem?_update.mp hqueued
    · exact verdictEventStatus_ne_pendingReview _ hstatus
    · exact hne rfl
  · exact (file_of_eq rfl rfl e').trans (file_investigate_ne s f _ hne)

theorem Counted.passes {start : ℕ} {w w' : World} (h : Counted rt start w w') :
    rt.clock.Passes w.out.clock w'.out.clock := by
  rcases h with h | ⟨w₁, now, h, hc⟩
  · exact h.clock
  · exact h.clock.trans (hc.clock ▸ hc.follows.passes)

theorem investigateAndCount_ok {env : InvestigationEnv} {e : ℕ} {w w' : World} {u : Unit}
    (h : exec (investigateAndCount rt config env tie e) w = (.ok u, w')) :
    ∃ start w₁, exec (investigateEvent rt config env tie e) w = (.ok start, w₁) ∧
      w'.db = w₁.db ∧ rt.clock.Passes w₁.out.clock w'.out.clock := by
  have hcases := investigateAndCount_cases rt config tie env e w
  rw [h] at hcases
  obtain ⟨start, w₁, hinv, h⟩ := exec_bind_ok.mp h
  refine ⟨start, w₁, hinv, ?_, ?_⟩
  · refine Respects.of_exec (R := Keeps id) ((respects_fallible _).bind fun _ =>
      (respects_query _).bind fun _ => ?_) h
    split
    · refine consumeSkipBudget_respects.bind fun _ => ?_
      split
      · exact incrementDailyCount_respects.bind fun _ => respects_fallible _
      · exact respects_fallible _
    · exact respects_fallible _
  · rw [hinv] at hcases
    rcases hcases with ⟨x, hx⟩ | ⟨_, _, hok, hcounted⟩
    · cases hx
    · obtain ⟨rfl, rfl⟩ : _ ∧ _ := by simpa using hok
      exact hcounted.passes

theorem investigateAndCount_turns {env : InvestigationEnv} {e : ℕ} {w w' : World} {u : Unit}
    (due : p (w.docket.file e))
    (h : exec (investigateAndCount rt config env tie e) w = (.ok u, w')) :
    TakesTurns rt p w w' ∧ Served e w.docket w'.docket := by
  obtain ⟨start, w₁, hinv, hdb, hclock⟩ := investigateAndCount_ok h
  obtain ⟨hdue, hserved⟩ := investigateEvent_due due hinv
  refine ⟨IsTrans.trans (r := TakesTurns rt p) _ w₁ _ (.single hdue) (.tick hdb hclock), ?_⟩
  have hdocket : w'.docket = { w₁.docket with clock := w'.out.clock } := by
    rw [World.docket, hdb]
    rfl
  rw [hdocket]
  exact ⟨hserved.length, hserved.left, hserved.others⟩

theorem isPickable_iff {db : Db} {t : Time} {e : ℕ} {event : Event}
    (hrow : db.events[e]? = some event) : isPickable db e event = true ↔
      ((db.docket t).file e).Pickable ∧ eventIsProbe db e = false := by
  have hstatus : ((db.docket t).file e).Queued ↔ event.status = .pendingReview := by
    simp [EventFile.Queued, file, Db.docket, hrow]
  have hinvs : ∀ s, (∀ inv ∈ ((db.docket t).file e).investigations, inv.status ≠ s) ↔
      ∀ i ∈ db.investigations, i.eventId = e → i.status ≠ s := by
    intro s
    simp only [file, Db.docket, List.mem_filter, List.mem_map, beq_iff_eq]
    constructor
    · intro h i hi he
      exact h i.core ⟨⟨i, hi, rfl⟩, he⟩
    · rintro h _ ⟨⟨i, hi, rfl⟩, he⟩
      exact h i hi he
  simp only [isPickable, Bool.and_eq_true, beq_iff_eq, Bool.not_eq_true', List.any_eq_false,
    Bool.or_eq_true, not_and, not_or]
  constructor
  · rintro ⟨⟨hs, hnone⟩, hprobe⟩
    exact ⟨⟨hstatus.mpr hs, (hinvs _).mpr fun i hi he => (hnone i hi he).1,
      (hinvs _).mpr fun i hi he => (hnone i hi he).2⟩, hprobe⟩
  · rintro ⟨⟨hs, hrunning, hcompleted⟩, hprobe⟩
    exact ⟨⟨hstatus.mp hs, fun i hi he => ⟨(hinvs _).mp hrunning i hi he,
      (hinvs _).mp hcompleted i hi he⟩⟩, hprobe⟩

theorem pickEvents_nodup (tie : ℕ → ℕ) (n : ℕ) (db : Db) : (pickEvents tie n db).Nodup :=
  Rows.orderLimit_map_nodup Prod.fst (Rows.select_keys_nodup _ _)

theorem waits_of_mem_pickEvents {n : ℕ} {w : World} {e : ℕ} (h : e ∈ pickEvents tie n w.db) :
    (w.docket.file e).Waits := by
  obtain ⟨⟨e, event⟩, hmem, rfl⟩ := List.mem_map.mp h
  obtain ⟨hrow, hpick⟩ := Rows.mem_select.mp (Rows.mem_of_mem_orderLimit hmem)
  exact ((isPickable_iff hrow).mp hpick).1.waits

theorem investigationRun_turns {env : InvestigationRunEnv} {limit : Option ℤ} {useLock : Bool} :
    Respects (TakesTurns rt EventFile.Waits) (investigationRun rt config env limit useLock) := by
  unfold investigationRun
  split
  · exact respects_pure _
  · refine Respects.bind ?_ fun remaining => ?_
    · intro w
      exact TakesTurns.tick rfl (rt.clock.reading_follows _ _).passes
    · split
      · exact respects_pure _
      · refine (respects_sqlLimit _).bind fun n => (respects_fallible _).bind fun _ w₀ => ?_
        rw [exec_query_bind]
        -- the events still to come wait where the run comes to them
        refine Loop.run_rule (fun (es : List ℕ) _ (w : World) => TakesTurns rt EventFile.Waits w₀ w ∧
          es.Nodup ∧ ∀ e ∈ es, (w.docket.file e).Waits) (TakesTurns rt EventFile.Waits w₀)
          (fun e es r w u w' h hb => ?_) (fun e es r w x w' h hb => ?_) (fun _ _ _ h => h.1)
          ⟨Std.Refl.refl _, pickEvents_nodup _ _ _, fun e => waits_of_mem_pickEvents⟩
        · obtain ⟨hturns, hnodup, hwaits⟩ := h
          obtain ⟨hnew, hnodup⟩ := List.nodup_cons.mp hnodup
          obtain ⟨hone, hserved⟩ := investigateAndCount_turns (hwaits e List.mem_cons_self) hb
          refine ⟨IsTrans.trans (r := TakesTurns rt _) _ _ _ hturns hone, hnodup, fun e' he' => ?_⟩
          rw [hserved.others e' (ne_of_mem_of_not_mem he' hnew).symm]
          exact hwaits e' (List.mem_cons_of_mem _ he')
        · obtain ⟨hturns, hnodup, hwaits⟩ := h
          have hclock : ClockPasses rt w w' := investigateAndCount_passes.of_exec hb
          refine ⟨IsTrans.trans (r := TakesTurns rt _) _ _ _ hturns (TakesTurns.tick rfl hclock),
            (List.nodup_cons.mp hnodup).2, fun e' he' => ?_⟩
          exact hwaits e' (List.mem_cons_of_mem _ he')

end

theorem recordReply_due {config : HumanReviewConfig} {rid : ℕ} {req : HumanReviewRequest}
    {response : HumanReviewResponse} {answeredAt : Time} {w w' : World}
    (hrow : w.db.requests[rid]? = some req) (hsent : req.status = .sent)
    (hdb : w'.db = recordReply config rid req response answeredAt w.db)
    (hclock : rt.clock.Passes w.out.clock w'.out.clock) : TakesTurns rt p w w' := by
  have hticked : TakesTurns rt p w { w with out := { w.out with clock := w'.out.clock } } :=
    TakesTurns.tick rfl hclock
  refine IsTrans.trans (r := TakesTurns rt p) _ _ _ hticked (.single ?_)
  rw [World.docket, World.docket, hdb, recordReply_docket]
  refine .answered ?_ hsent _
  change (w.db.requests.map (·.core))[rid]? = some req.core
  rw [List.getElem?_map, hrow]
  rfl

theorem handleReply_turns {config : HumanReviewConfig} {env : ReplyEnv} {rawContent : String}
    {externalMsgId responder : Option String} {requestId : Option ℕ} :
    Respects (TakesTurns rt p)
      (handleReply rt config env rawContent externalMsgId responder requestId) := by
  intro w
  refine takesTurns_transaction (fun r w' h hclock => ?_) (@handleReply_leaves rt _ _ _ _ _ _ w).clock
  simp only [exec_fallible_bind_ok, exec_query_bind] at h
  obtain ⟨-, h⟩ := h
  split at h
  · simp only [exec_pure, Prod.mk.injEq] at h
    exact h.2 ▸ Std.Refl.refl _
  · rename_i rid req content hreplied
    obtain ⟨hrow, hsent⟩ := findRepliedRequest_ok hreplied
    simp only [exec_fallible_bind_ok] at h
    obtain ⟨-, h⟩ := h
    split at h
    · simp at h
    · simp only [exec_pure, Prod.mk.injEq] at h
      exact h.2 ▸ Std.Refl.refl _
    · simp only [exec_utcNow_bind] at h
      split at h
      · simp only [exec_fallible_bind_ok, exec_utcNow_bind, markReinvestigation,
          exec_setRedis_bind, exec_modify_bind, exec_pure, Prod.mk.injEq] at h
        obtain ⟨-, -, -, rfl⟩ := h
        exact recordReply_due hrow hsent rfl hclock
      · simp only [exec_fallible_bind_ok, exec_modify_bind, exec_pure, Prod.mk.injEq] at h
        obtain ⟨-, -, rfl⟩ := h
        exact recordReply_due hrow hsent rfl hclock

def QueuedLinks (alertId : ℕ) (db : Db) : Prop :=
  ∀ l ∈ db.eventAlerts, l.alertId = alertId → db.files.events[l.eventId]? = some .pendingReview

def linksTo (db : Db) (e : ℕ) : List EventAlert := db.eventAlerts.filter fun l => l.eventId == e

/-- An alert is linked to an event of the queue, and the events keep their status. -/
theorem Linked.queued {config : AggregationConfig} {tie : ℕ → ℕ} {item : PendingAlert}
    {db db' : Db} (h : Linked rt config tie item db db') : ∃ l,
      db'.eventAlerts = db.eventAlerts ++ [l] ∧
      db'.files.events[l.eventId]? = some .pendingReview ∧
      db.files.events <+: db'.files.events := by
  obtain ⟨dims, eventId, events, now, -, -, hchosen, rfl⟩ := h
  rw [recordLink_files]
  refine ⟨_, rfl, ?_⟩
  change (events.map (·.status))[eventId]? = _ ∧ db.events.map (·.status) <+: events.map (·.status)
  cases hchosen with
  | merged target =>
    obtain ⟨hmem, -, hstatus⟩ := findMergeTarget_some target
    refine ⟨?_, List.prefix_rfl⟩
    rw [List.getElem?_map, (Rows.mem_select.mp hmem).1, Option.map_some, hstatus]
  | created createdAt target =>
    refine ⟨?_, (List.prefix_append _ _).map _⟩
    simp [newEvent]

theorem getElem?_of_prefix {α : Type} {l l' : List α} {i : ℕ} {a : α} (h : l <+: l')
    (hi : l[i]? = some a) : l'[i]? = some a := by
  obtain ⟨new, rfl⟩ := h
  rw [List.getElem?_append_left (Rows.lt_of_getElem? hi)]
  exact hi

theorem aggregationRun_queuedLinks (alertId : ℕ) {config : AggregationConfig}
    {env : AggregationRunEnv} {limit : Option ℤ} {useLock : Bool} :
    Respects (OnDb fun db db' => QueuedLinks alertId db → QueuedLinks alertId db')
      (aggregationRun rt config env limit useLock) := by
  refine aggregationRun_respects fun item db db' hlinked h l hl halert => ?_
  obtain ⟨new, hlinks, hnew, hstatus⟩ := hlinked.queued
  rw [hlinks] at hl
  rcases List.mem_append.mp hl with hold | hlast
  · exact getElem?_of_prefix hstatus (h l hold halert)
  · obtain rfl := List.mem_singleton.mp hlast
    exact hnew

def Seals (e : ℕ) (db db' : Db) : Prop :=
  db.files.events[e]? = some .closed →
    db'.files.events[e]? = some .closed ∧ linksTo db' e = linksTo db e

instance (e : ℕ) : Std.Refl (Seals e) where
  refl _ h := ⟨h, rfl⟩

instance (e : ℕ) : IsTrans Db (Seals e) where
  trans _ _ _ h h' hclosed := by
    obtain ⟨hclosed, hlinks⟩ := h hclosed
    obtain ⟨hclosed, hlinks'⟩ := h' hclosed
    exact ⟨hclosed, hlinks'.trans hlinks⟩

theorem aggregationRun_seals {config : AggregationConfig} {env : AggregationRunEnv}
    {limit : Option ℤ} {useLock : Bool} (e : ℕ) :
    Respects (OnDb (Seals e)) (aggregationRun rt config env limit useLock) := by
  refine aggregationRun_respects fun item db db' hlinked hclosed => ?_
  obtain ⟨new, hlinks, hnew, hstatus⟩ := hlinked.queued
  have hclosed' := getElem?_of_prefix hstatus hclosed
  have hne : new.eventId ≠ e := by
    rintro rfl
    rw [hnew] at hclosed'
    cases hclosed'
  refine ⟨hclosed', ?_⟩
  simp [linksTo, hlinks, List.filter_append, hne]

theorem seals_of_keepsLinks {e : ℕ} {db db' : Db} (hk : KeepsLinks db db')
    (hstatus : db'.files.events[e]? = db.files.events[e]?) : Seals e db db' := by
  intro hclosed
  rw [hstatus, linksTo, hk.links]
  exact ⟨hclosed, rfl⟩

/-- Events of the queue are investigated, and closed ones are left alone. -/
structure Orderly (rt : Runtime) (w w' : World) : Prop where
  turns : TakesTurns rt EventFile.Queued w w'
  seals : ∀ e, Seals e w.db w'.db

instance : Std.Refl (Orderly rt) where
  refl _ := ⟨Std.Refl.refl _, fun _ => Std.Refl.refl _⟩

instance : IsTrans World (Orderly rt) where
  trans _ _ _ h h' := ⟨IsTrans.trans (r := TakesTurns rt _) _ _ _ h.turns h'.turns,
    fun e => IsTrans.trans (r := Seals e) _ _ _ (h.seals e) (h'.seals e)⟩

theorem Leaves.orderly {w w' : World} (h : Leaves rt Db.files w w') (hk : KeepsLinks w.db w'.db) :
    Orderly rt w w' where
  turns := h.takesTurns
  seals _ := seals_of_keepsLinks hk (by rw [h.db])

theorem aggregationRun_orderly {config : AggregationConfig} {env : AggregationRunEnv}
    {limit : Option ℤ} {useLock : Bool} :
    Respects (Orderly rt) (aggregationRun rt config env limit useLock) := fun w =>
  ⟨(aggregationRun_simulates w).takesTurns nofun nofun, fun e => aggregationRun_seals e w⟩

section

variable {config : HealthCheckConfig} {env : HealthCheckEnv} {scenario : HealthCheckScenario}
  {alertId : ℕ} {target : HealthCheckStage}

theorem injectProbe_alertId {w w' : World}
    (h : exec (injectProbe rt env scenario) w = (.ok alertId, w')) :
    alertId = w.db.alerts.length := by
  rw [injectProbe, exec_atomically_ok, exec_query_bind] at h
  split at h
  · simp at h
  · split at h
    · simp at h
    · simp only [exec_utcNow_bind, exec_query_bind] at h
      split at h
      · simp at h
      · simp only [exec_modify_bind, exec_fallible_bind_ok, exec_pure, Prod.mk.injEq,
          Except.ok.injEq] at h
        exact h.2.1.symm

/-- The alert of a probe is new, so it has no links. -/
theorem injectProbe_queuedLinks {w w' : World} (hs : AlertsStaged w.db)
    (h : exec (injectProbe rt env scenario) w = (.ok alertId, w')) :
    QueuedLinks alertId w'.db := by
  obtain rfl := injectProbe_alertId h
  have hnone : statusOf w.db.alerts w.db.alerts.length = none := by simp [statusOf]
  have hstage := hs w.db.alerts.length
  rw [hnone] at hstage
  obtain ⟨-, hunlinked, -⟩ := hstage.of_none
  intro l hl halert
  rw [(injectProbe_ok h).1.links] at hl
  have hmem : l ∈ linksOf w.db.eventAlerts w.db.alerts.length :=
    List.mem_filter.mpr ⟨hl, beq_iff_eq.mpr halert⟩
  rw [hunlinked] at hmem
  cases hmem

theorem investigateProbe_orderly {w : World} (h : QueuedLinks alertId w.db) :
    Orderly rt w (exec (investigateProbe rt config env alertId) w).2 := by
  have hpasses : ClockPasses rt w (exec (investigateProbe rt config env alertId) w).2 :=
    (investigateProbe_simulates w).passes
  have hk : KeepsLinks w.db (exec (investigateProbe rt config env alertId) w).2.db :=
    investigateProbe_keepsLinks w
  rw [investigateProbe, exec_query_bind] at hpasses hk ⊢
  split
  · exact Std.Refl.refl _
  · rename_i link hfind
    rw [hfind] at hpasses hk
    dsimp only at hpasses hk
    rw [transaction, exec_atomically] at hpasses hk ⊢
    split
    · rename_i u w' hr
      rw [hr] at hk
      obtain ⟨start, w₁, hinv, hc⟩ := exec_bind_ok.mp hr
      obtain ⟨-, rfl⟩ := exec_fallible_ok.mp hc
      have hlinked := List.find?_some hfind
      have hqueued : w.db.files.events[link.eventId]? = some .pendingReview :=
        h link (List.mem_of_find?_eq_some hfind) (eq_of_beq hlinked)
      obtain ⟨hdue, hserved⟩ := investigateEvent_due (p := EventFile.Queued) hqueued hinv
      refine ⟨.single hdue, fun e hclosed => ?_⟩
      have hne : link.eventId ≠ e := by
        rintro rfl
        rw [hqueued] at hclosed
        cases hclosed
      exact seals_of_keepsLinks hk (congrArg EventFile.status (hserved.others e hne)) hclosed
    · rename_i x w' hr
      rw [hr] at hpasses hk
      exact ⟨TakesTurns.tick rfl hpasses, fun e => seals_of_keepsLinks hk rfl⟩

theorem triageRun_files {config : TriageConfig} {env : TriageRunEnv} {limit : Option ℤ}
    {useLock : Bool} : Respects (Leaves rt Db.files) (triageRun rt config env limit useLock) :=
  triageRun_leaves fun _ _ _ _ _ => rfl

theorem runToStage_orderly {w : World} (h : QueuedLinks alertId w.db) :
    Orderly rt w (exec (runToStage rt config env alertId target) w).2 := by
  unfold runToStage
  split
  · exact Std.Refl.refl _
  · refine rel_bind ((triageRun_files w).orderly (triageRun_keepsLinks w)) fun _ w₁ h₁ => ?_
    split
    · exact Std.Refl.refl _
    · refine rel_bind (aggregationRun_orderly w₁) fun _ w₂ h₂ => ?_
      split
      · exact Std.Refl.refl _
      · refine investigateProbe_orderly ?_
        have hlinks : KeepsLinks w.db w₁.db := triageRun_keepsLinks.of_exec h₁
        have hfiles : w₁.db.files = w.db.files := (triageRun_files.of_exec h₁).db
        have hqueued : QueuedLinks alertId w₁.db := by
          rw [QueuedLinks, hlinks.links, hfiles]
          exact h
        exact (aggregationRun_queuedLinks alertId).of_exec h₂ hqueued

theorem healthCheckRunOne_orderly {w : World} (hs : AlertsStaged w.db) :
    Orderly rt w (exec (healthCheckRunOne rt config env scenario) w).2 :=
  rel_bind ((injectProbe_leaves w).orderly (injectProbe_keepsLinks w)) fun _ _ h =>
    runToStage_orderly (injectProbe_queuedLinks hs h)

theorem healthCheckRun_orderly {runEnv : HealthCheckRunEnv} {scenarios : List HealthCheckScenario}
    {useLock : Bool} {w : World} (hs : AlertsStaged w.db) :
    Orderly rt w (exec (healthCheckRun rt config runEnv scenarios useLock) w).2 := by
  unfold healthCheckRun
  split
  · exact Std.Refl.refl _
  · have one {scenario : HealthCheckScenario} {w₁ w₂ : World} {r : Except Exn Unit}
        (h : AlertsStaged w₁.db ∧ Orderly rt w w₁)
        (hb : exec (healthCheckRunOne rt config (runEnv.items scenario.name) scenario) w₁ =
          (r, w₂)) : AlertsStaged w₂.db ∧ Orderly rt w w₂ := by
      have hstages : Respects KeepsStages
          (healthCheckRunOne rt config (runEnv.items scenario.name) scenario) :=
        injectProbe_stages.bind fun _ => runToStage_stages
      have hone := @healthCheckRunOne_orderly rt config (runEnv.items scenario.name) scenario _ h.1
      rw [hb] at hone
      exact ⟨hstages.of_exec hb h.1, IsTrans.trans (r := Orderly rt) _ _ _ h.2 hone⟩
    exact Loop.run_rule (fun _ _ w₁ => AlertsStaged w₁.db ∧ Orderly rt w w₁) (Orderly rt w)
      (fun _ _ _ _ _ _ h hb => one h hb) (fun _ _ _ _ _ _ h hb => one h hb) (fun _ _ _ h => h.2)
      ⟨hs, Std.Refl.refl _⟩

end

def Label.isHealthCheck : Label → Bool
  | .healthCheck .. => true
  | _ => false

theorem perform_turns {l : Label} (hl : l.isHealthCheck = false) :
    Respects (TakesTurns rt EventFile.Waits) (perform rt l) := by
  have other (hi : ¬l.acts .investigated) (ha : ∀ reopen, ¬l.acts (.answered reopen)) :
      Respects (TakesTurns rt EventFile.Waits) (perform rt l) :=
    fun w => (perform_simulates l w).takesTurns hi ha
  cases l with
  | investigate config env limit useLock => exact investigationRun_turns.map _
  | reply config env rawContent externalMsgId responder requestId =>
    exact handleReply_turns.map _
  | healthCheck => cases hl
  | configure => exact other id fun _ => id
  | ingest => exact other id fun _ => id
  | triage => exact other id fun _ => id
  | auditSample => exact other id fun _ => id
  | aggregate => exact other nofun nofun
  | review => exact other (by simp [Label.acts]) (by simp [Label.acts])
  | cancel => exact other nofun nofun
  | settle => exact other (by simp [Label.acts]) (by simp [Label.acts])
  | confirm => exact other nofun nofun
  | reject => exact other nofun nofun

theorem perform_queued (l : Label) {w : World} (hs : AlertsStaged w.db) :
    TakesTurns rt EventFile.Queued w (exec (perform rt l) w).2 := by
  cases hl : l.isHealthCheck with
  | false => exact Turns.mono (fun _ => EventFile.Waits.queued) (perform_turns hl w)
  | true =>
    cases l with
    | healthCheck config env scenarios useLock =>
      rw [perform, exec_map]
      exact (healthCheckRun_orderly hs).turns
    | _ => cases hl

theorem awaited_of_reachable {w : World} (h : (system rt {}).Reachable w) : w.docket.Awaited := by
  have hinit : Docket.Awaited {} := ⟨nofun, nofun⟩
  refine (h.invariant (I := fun w => AlertsStaged w.db ∧ w.docket.Awaited)
    ⟨alertsStaged_empty, hinit⟩ fun w l w' hw _ hstep => ?_).2
  obtain rfl := Option.some.inj hstep
  refine ⟨perform_stages l w hw.1, ?_⟩
  exact (perform_queued l hw.1).invariant (fun _ _ h hs => hs.awaited (fun _ => id) h) hw.2

/-- The investigations of an event. -/
def investigationsOf (db : Db) (e : ℕ) : List InvestigationCore :=
  (db.investigations.filter fun i => i.eventId == e).map (·.core)

def statusOfEvent (db : Db) (e : ℕ) : Option EventStatus := (db.events[e]?).map (·.status)

theorem file_eq (db : Db) (t : Time) (e : ℕ) :
    (db.docket t).file e = ⟨statusOfEvent db e, investigationsOf db e⟩ := by
  simp [file, Db.docket, statusOfEvent, investigationsOf, List.filter_map, Function.comp_def,
    Investigation.core]

/-- The event has the status, the investigations and the number of requests that it had. -/
structure KeepsEvent (e : ℕ) (db db' : Db) : Prop where
  status : statusOfEvent db' e = statusOfEvent db e
  investigations : investigationsOf db' e = investigationsOf db e
  requests : requestCount db' e (fun _ => true) = requestCount db e fun _ => true

theorem keepsEvent_of_untouched {w w' : World} {e : ℕ} (h : Untouched e w.docket w'.docket) :
    KeepsEvent e w.db w'.db := by
  have hfile := h.file
  rw [World.docket, World.docket, file_eq, file_eq] at hfile
  obtain ⟨hstatus, hinvs⟩ := EventFile.mk.inj hfile
  refine ⟨hstatus, hinvs, ?_⟩
  rw [← requestCount_eq, ← requestCount_eq]
  exact h.requestCount

theorem turns_of_run {ls : List Label} {w w' : World} (hls : ∀ l ∈ ls, l.isHealthCheck = false)
    (hrun : (system rt {}).run ls w = some w') : TakesTurns rt EventFile.Waits w w' := by
  induction ls generalizing w with
  | nil =>
    obtain rfl := Option.some.inj hrun
    exact Std.Refl.refl _
  | cons l ls ih =>
    refine IsTrans.trans (r := TakesTurns rt _) _ _ _ (perform_turns (hls l List.mem_cons_self) w) ?_
    exact ih (fun l' hl' => hls l' (List.mem_cons_of_mem _ hl')) hrun

/-- A reply that triggers a reinvestigation completes an investigation of the event it reopens. -/
theorem handleReply_reopens {config : HumanReviewConfig} {env : ReplyEnv} {rawContent : String}
    {externalMsgId responder : Option String} {requestId : Option ℕ} {r : HandleReplyResult}
    {w w' : World} (ht : w.docket.Taken)
    (hreply : exec (handleReply rt config env rawContent externalMsgId responder requestId) w =
      (.ok r, w')) (htriggered : r.reinvestigationTriggered = true) :
    ∃ e, r.eventId = some e ∧ statusOfEvent w'.db e = some .pendingReview ∧
      ∃ inv ∈ investigationsOf w'.db e, inv.status = .completed := by
  obtain ⟨rid, req, event, response, answeredAt, hrow, -, hevent, henabled, he, hdb⟩ :=
    handleReply_triggered hreply htriggered
  have hmem : req.core ∈ w.docket.requests := List.mem_map_of_mem (List.mem_of_getElem? hrow)
  obtain ⟨core, hcore, heq, hasked⟩ := ht _ hmem
  obtain ⟨inv, hinv, rfl⟩ : ∃ inv, w.db.investigations[req.investigationId]? = some inv ∧
      inv.core = core := by
    simpa [World.docket, Db.docket, HumanReviewRequest.core] using hcore
  obtain ⟨inv', hinv', heq', hstatus⟩ :=
    recordReply_completes config rid response answeredAt hinv hasked
  have heq : inv'.eventId = req.eventId := heq'.trans heq
  refine ⟨req.eventId, he, ?_, inv'.core, ?_, hstatus⟩
  · have hreopened : w'.db.events[req.eventId]? = some { event with status := .pendingReview } := by
      rw [hdb, recordReply, henabled]
      exact Rows.getElem?_update.mpr (.inl ⟨rfl, event, hevent, rfl⟩)
    rw [statusOfEvent, hreopened]
    rfl
  · rw [hdb]
    refine List.mem_map_of_mem (List.mem_filter.mpr ⟨List.mem_of_getElem? hinv', ?_⟩)
    exact beq_iff_eq.mpr heq

/--
In every run an event that is answered so that it is reinvestigated goes back into the queue for
good: whatever happens later, health checks apart, it keeps that status, its investigations and
the requests about it.
-/
theorem replied_event_is_buried {config : HumanReviewConfig} {env : ReplyEnv} {rawContent : String}
    {externalMsgId responder : Option String} {requestId : Option ℕ} {r : HandleReplyResult}
    {w w' w'' : World} {ls : List Label} (h : (system rt {}).Reachable w)
    (hreply : exec (handleReply rt config env rawContent externalMsgId responder requestId) w =
      (.ok r, w')) (htriggered : r.reinvestigationTriggered = true)
    (hls : ∀ l ∈ ls, l.isHealthCheck = false) (hrun : (system rt {}).run ls w' = some w'') :
    ∃ e, r.eventId = some e ∧ statusOfEvent w'.db e = some .pendingReview ∧
      KeepsEvent e w'.db w''.db := by
  obtain ⟨e, he, hqueued, inv, hinv, hcompleted⟩ :=
    handleReply_reopens (taken_of_reachable h) hreply htriggered
  have hstep : (system rt {}).step (.reply config env rawContent externalMsgId responder requestId)
      w = some w' := by
    change some (exec (_ <$> _) w).2 = _
    rw [exec_map, hreply]
  have hreach := h.step trivial hstep
  refine ⟨e, he, hqueued, keepsEvent_of_untouched ?_⟩
  refine (turns_of_run hls hrun).untouched (fun _ => EventFile.Waits.queued)
    (awaited_of_reachable hreach) (taken_of_reachable hreach) ?_ ?_
  · rw [World.docket, file_eq, hqueued]
    exact ⟨by simp, by simp, by simp⟩
  · rw [World.docket, file_eq]
    exact fun hwaits => hwaits.incomplete inv hinv hcompleted

def laterRun : List Label :=
  [.investigateAll (hours 6) (.ok (submits .attackConfirmed none)), .reviewAll (hours 7)]

theorem laterRun_ordinary : ∀ l ∈ laterRun, l.isHealthCheck = false := by decide

theorem replied_event_is_buried_dispatched :
    ∃ r w' w'', exec firstReply dispatchedWorld = (.ok r, w') ∧
      (system (sampleRuntime .increasing []) {}).run laterRun w' = some w'' ∧
      ∃ e, r.eventId = some e ∧ statusOfEvent w'.db e = some .pendingReview ∧
        KeepsEvent e w'.db w''.db :=
  ⟨_, _, _, exec_of_returned firstReply_returned, rfl,
    replied_event_is_buried dispatchedWorld_reachable (exec_of_returned firstReply_returned) rfl
      laterRun_ordinary rfl⟩

theorem once_of_reachable {w : World}
    (h : (system rt {}).ReachableBy (fun _ l => l.isHealthCheck = false) w) : w.docket.Once := by
  have hinit : Docket.Once {} := ⟨nofun, .nil, nofun⟩
  refine (h.invariant (I := fun w => w.docket.Once ∧ w.docket.Taken) ⟨hinit, nofun⟩
    fun w l w' hw hl hstep => ?_).1
  obtain rfl := Option.some.inj hstep
  refine (perform_turns hl w).invariant (I := fun d => d.Once ∧ d.Taken) (fun d d' hd hs => ?_) hw
  obtain ⟨a, hstep⟩ := hs.step
  exact ⟨hs.once (fun _ => id) hd.1 hd.2, hstep.taken hd.2⟩

/-- In every run without health checks an event is investigated at most once, replies or not. -/
theorem investigated_at_most_once {w : World}
    (h : (system rt {}).ReachableBy (fun _ l => l.isHealthCheck = false) w) (e : ℕ) :
    (investigationsOf w.db e).length ≤ 1 := by
  have hsingle := (once_of_reachable h).single
  have hcount : (w.docket.investigations.map (·.eventId)).count e =
      (investigationsOf w.db e).length := by
    simp [World.docket, Db.docket, investigationsOf, List.count, List.countP_map,
      ← List.countP_eq_length_filter, Function.comp_def, Investigation.core]
  rw [← hcount]
  exact List.nodup_iff_count_le_one.mp hsingle e

theorem dispatchedRun_ordinary : ∀ l ∈ dispatchedRun, l.isHealthCheck = false := by decide

theorem investigated_at_most_once_dispatched : (investigationsOf dispatchedWorld.db 0).length ≤ 1 := by
  have hrun : (system (sampleRuntime .increasing []) {}).run dispatchedRun {} =
    some dispatchedWorld := rfl
  exact investigated_at_most_once
    (System.reachableBy_of_run (System.runsBy_of_labels dispatchedRun_ordinary) hrun) 0

theorem perform_keepsLinks {l : Label} (hl : l.isHealthCheck = false)
    (ha : ∀ config env limit useLock, l ≠ .aggregate config env limit useLock) :
    Respects (OnDb KeepsLinks) (perform rt l) := by
  cases hmoves : l.movesAlerts with
  | false =>
    refine (perform_keepsAlerts hmoves).mono fun w w' hw => ?_
    obtain ⟨halerts, hlinks⟩ := Prod.mk.inj hw
    exact .of_eq (congrArg (List.map isProbeAlert) halerts) hlinks
  | true =>
    cases l with
    | ingest env source maxBatches useLock =>
      exact (runForSource_respects fun _ => runBatch_keepsLinks).map _
    | triage config env limit useLock => exact triageRun_keepsLinks.map _
    | aggregate config env limit useLock => exact absurd rfl (ha config env limit useLock)
    | healthCheck => cases hl
    | _ => cases hmoves

theorem perform_linksTo (l : Label) {w : World} {e : ℕ} (hs : AlertsStaged w.db)
    (hclosed : w.db.files.events[e]? = some .closed) :
    linksTo (exec (perform rt l) w).2.db e = linksTo w.db e := by
  cases hl : l.isHealthCheck with
  | true =>
    cases l with
    | healthCheck config env scenarios useLock =>
      rw [perform, exec_map]
      exact ((healthCheckRun_orderly hs).seals e hclosed).2
    | _ => cases hl
  | false =>
    by_cases ha : ∃ config env limit useLock, l = .aggregate config env limit useLock
    · obtain ⟨config, env, limit, useLock, rfl⟩ := ha
      rw [perform, exec_map]
      exact (aggregationRun_seals e w hclosed).2
    · push Not at ha
      rw [linksTo, (perform_keepsLinks hl ha w).links, linksTo]

/-- What a closed event keeps. -/
structure KeepsClosed (e : ℕ) (db db' : Db) : Prop extends KeepsEvent e db db' where
  links : linksTo db' e = linksTo db e

theorem perform_keepsClosed (l : Label) {w : World} {e : ℕ} (h : (system rt {}).Reachable w)
    (hclosed : statusOfEvent w.db e = some .closed) :
    KeepsClosed e w.db (exec (perform rt l) w).2.db := by
  have hs := alertsStaged_of_reachable h
  have hevent : w.db.files.events[e]? = some .closed := by
    rw [← hclosed]
    exact List.getElem?_map
  have huntouched : Untouched e w.docket (exec (perform rt l) w).2.docket := by
    refine (perform_queued l hs).untouched (fun _ => id) (awaited_of_reachable h)
      (taken_of_reachable h) ?_ ?_
    · rw [World.docket, file_eq, hclosed]
      exact ⟨by simp, by simp, by simp⟩
    · rw [World.docket, file_eq, hclosed]
      simp [EventFile.Queued]
  exact ⟨keepsEvent_of_untouched huntouched, perform_linksTo l hs hevent⟩

/--
An event that is closed stays closed in every run: it is neither investigated nor asked about
again, and no alert is merged into it.
-/
theorem closed_event_is_final {w w' : World} {ls : List Label} {e : ℕ}
    (h : (system rt {}).Reachable w) (hclosed : statusOfEvent w.db e = some .closed)
    (hrun : (system rt {}).run ls w = some w') : KeepsClosed e w.db w'.db := by
  induction ls generalizing w with
  | nil =>
    obtain rfl := Option.some.inj hrun
    exact ⟨⟨rfl, rfl, rfl⟩, rfl⟩
  | cons l ls ih =>
    have hone := perform_keepsClosed l h hclosed
    have hreach := h.step (l := l) trivial rfl
    have hrest := ih hreach (hone.status.trans hclosed) hrun
    exact ⟨⟨hrest.status.trans hone.status, hrest.investigations.trans hone.investigations,
      hrest.requests.trans hone.requests⟩, hrest.links.trans hone.links⟩

def settledRun : List Label := concludedRun ++ [.settleAll]

def settledWorld : World :=
  ((system (sampleRuntime .increasing []) {}).run settledRun {}).getD {}

def repeatedRun : List Label :=
  [.ingestAll (hours 5) [sampleAlert "a-2"], .triageAll (hours 5), .aggregateAll (hours 6)]

theorem closed_event_is_final_settled :
    ∃ w', (system (sampleRuntime .increasing []) {}).run repeatedRun settledWorld = some w' ∧
      KeepsClosed 0 settledWorld.db w'.db := by
  have hrun : (system (sampleRuntime .increasing []) {}).run settledRun {} = some settledWorld := rfl
  exact ⟨_, rfl, @closed_event_is_final _ _ _ repeatedRun 0 (System.reachable_of_run hrun)
    (by decide +kernel) rfl⟩

end Minsight

import Minsight.Lifecycle.Invariants
import Minsight.Lifecycle.Refinement

/-! # Human review moves the docket

A review run expires requests, cancels those that newer investigations have superseded and
sends new ones. The events it asks about are chosen before the first request is sent, so
what qualified them must survive the requests that are sent before theirs.
-/

namespace Minsight

open Tx Session Docket

variable {rt : Runtime} {config : HumanReviewConfig}

theorem latestInvestigation_latestOf {tie : ℕ → ℕ} {invs : Rows Investigation} {e i : ℕ}
    {inv : Investigation} (h : latestInvestigation tie invs e = some (i, inv)) :
    LatestOf (invs.map (·.core)) e i inv.core := by
  obtain ⟨hmem, hlast⟩ := Rows.head_orderLimit h
  simp only [Rows.mem_select, beq_iff_eq] at hmem
  refine ⟨by simp [hmem.1], hmem.2, fun j c hj hc => ?_⟩
  obtain ⟨inv', hj', rfl⟩ : ∃ inv', invs[j]? = some inv' ∧ inv'.core = c := by
    simpa using hj
  have hbefore := hlast (j, inv') (by simpa [Rows.mem_select] using ⟨hj', hc⟩)
  exact hbefore.le

/-- The event waits for a human, and another request about its latest investigation may be sent. -/
structure Dispatchable (maxResend : ℤ) (d : Docket) (e i : ℕ) : Prop where
  pending : d.events[e]? = some .humanPending
  latest : ∃ inv, LatestOf d.investigations e i inv
  unsent : d.sentCount e = 0
  few : (d.requestCount e : ℤ) ≤ maxResend

theorem Dispatchable.tick {maxResend : ℤ} {d : Docket} {e i : ℕ} {t : Time}
    (h : Dispatchable maxResend d e i) : Dispatchable maxResend { d with clock := t } e i :=
  ⟨h.pending, h.latest, h.unsent, h.few⟩

theorem Dispatchable.dispatch {maxResend : ℤ} {d : Docket} {e e' i i' : ℕ}
    (h : Dispatchable maxResend d e i) (he : e' ≠ e) :
    Dispatchable maxResend (d.dispatch e' i') e i where
  pending := h.pending
  latest := by
    obtain ⟨inv, hinv⟩ := h.latest
    obtain ⟨inv', hrow⟩ : ∃ inv', (d.dispatch e' i').investigations[i]? = some inv' := by
      by_cases hi : i' = i
      · exact ⟨_, Rows.getElem?_update.mpr (.inl ⟨hi, inv, hinv.row, rfl⟩)⟩
      · exact ⟨_, Rows.getElem?_update.mpr (.inr ⟨hi, hinv.row⟩)⟩
    exact ⟨inv', hinv.of_spans (dispatch_spans e' i') hrow⟩
  unsent := by simpa [sentCount, Docket.dispatch, List.countP_append, he] using h.unsent
  few := by simpa [Docket.requestCount, Docket.dispatch, List.countP_append, he] using h.few

theorem requestCount_eq (db : Db) (t : Time) (e : ℕ) :
    (db.docket t).requestCount e = Minsight.requestCount db e fun _ => true := by
  simp [Docket.requestCount, Minsight.requestCount, Db.docket, List.countP_map,
    Function.comp_def, HumanReviewRequest.core]

theorem sentCount_eq (db : Db) (t : Time) (e : ℕ) :
    (db.docket t).sentCount e = Minsight.requestCount db e fun r => r.status == .sent := by
  simp [Docket.sentCount, Minsight.requestCount, Db.docket, List.countP_map,
    Function.comp_def, HumanReviewRequest.core]

theorem dispatchable_of_mem {tie : ℕ → ℕ} {maxResend : ℤ} {n : ℕ} {db : Db} {t : Time}
    {c : DispatchCandidate} (h : c ∈ pickDispatchCandidates tie maxResend n db) :
    Dispatchable maxResend (db.docket t) c.eventId c.investigationId := by
  simp only [pickDispatchCandidates, List.mem_filterMap, Prod.exists] at h
  obtain ⟨e, event, hmem, hc⟩ := h
  have hsel := Rows.mem_of_mem_orderLimit hmem
  simp only [Rows.mem_select, awaitsDispatch, Bool.and_eq_true, beq_iff_eq,
    decide_eq_true_eq] at hsel
  obtain ⟨hev, ⟨hstatus, hunsent⟩, hfew⟩ := hsel
  split at hc
  · cases hc
  · obtain ⟨⟨i, conclusion⟩, hlatest, rfl⟩ := Option.map_eq_some_iff.mp hc
    simp only [latestHumanInvestigation, Option.bind_eq_bind, Option.bind_eq_some_iff,
      Prod.exists] at hlatest
    obtain ⟨i', inv, hinv, conclusion', -, hif⟩ := hlatest
    split at hif
    · obtain ⟨rfl, rfl⟩ : i' = i ∧ conclusion' = conclusion := by simpa using hif
      refine ⟨by simp [Db.docket, hev, hstatus], ⟨_, latestInvestigation_latestOf hinv⟩, ?_, ?_⟩
      · rw [sentCount_eq]
        exact hunsent
      · rw [requestCount_eq]
        exact hfew
    · cases hif

theorem pickDispatchCandidates_nodup {tie : ℕ → ℕ} {maxResend : ℤ} {n : ℕ} {db : Db} :
    ((pickDispatchCandidates tie maxResend n db).map (·.eventId)).Nodup := by
  have hkeys : ((Rows.orderLimit (fun x y => (queueOrder tie x y).isLE) n
      (db.events.select (awaitsDispatch maxResend db))).map Prod.fst).Nodup :=
    Rows.orderLimit_map_nodup Prod.fst (Rows.select_keys_nodup _ _)
  simp only [pickDispatchCandidates, List.Nodup, List.pairwise_map,
    List.pairwise_filterMap] at hkeys ⊢
  refine hkeys.imp fun hne c hc c' hc' => ?_
  have heq : ∀ {x : ℕ × Event} {c : DispatchCandidate}, (if eventIsProbe db x.1 then none
      else (latestHumanInvestigation tie db x.1).map fun i =>
        ({ eventId := x.1, event := x.2, investigationId := i.1, conclusion := i.2 } :
          DispatchCandidate)) = some c → c.eventId = x.1 := by
    intro x c h
    split at h
    · cases h
    · obtain ⟨i, -, rfl⟩ := Option.map_eq_some_iff.mp h
      rfl
  rwa [heq hc, heq hc']

/-- A dispatch that raises has written nothing, one that returns has sent the request. -/
theorem dispatchOne_cases {env : DispatchEnv} {c : DispatchCandidate} {w w' : World}
    {r : Except Exn Unit} (h : exec (dispatchOne rt config env c) w = (r, w')) :
    w' = w ∨ ∃ t, rt.clock.Follows w.out.clock t ∧
      w'.docket = Docket.dispatch { w.docket with clock := t } c.eventId c.investigationId := by
  unfold dispatchOne at h
  dsimp only at h
  split at h
  · simp only [exec_raise, Prod.mk.injEq] at h
    exact .inl h.2.symm
  · simp only [exec_utcNow_bind, exec_modify, Prod.mk.injEq] at h
    obtain ⟨-, rfl⟩ := h
    refine .inr ⟨_, rt.clock.reading_follows w.out.clock env.now, ?_⟩
    have hstatus : ∀ i : Investigation, ({ i with status := .needsHuman } : Investigation).core =
        i.core.withStatus .needsHuman := fun _ => rfl
    simp [World.docket, Db.docket, Docket.dispatch, Rows.map_update hstatus,
      HumanReviewRequest.core]

theorem exec_dispatchAll_cons (items : ℕ → DispatchEnv) (result : HumanReviewRunResult)
    (c : DispatchCandidate) (cs : List DispatchCandidate) (w : World) :
    ∃ result', exec (dispatchAll rt config items result (c :: cs)) w =
      exec (dispatchAll rt config items result' cs)
        (exec (dispatchOne rt config (items c.eventId) c) w).2 := by
  rw [dispatchAll, exec_bind_attempt]
  split
  · exact ⟨_, rfl⟩
  · exact ⟨_, rfl⟩

theorem dispatchAll_simulates {items : ℕ → DispatchEnv} {result : HumanReviewRunResult}
    {cs : List DispatchCandidate} {w : World} (hcs : (cs.map (·.eventId)).Nodup)
    (h : ∀ c ∈ cs, Dispatchable config.maxResend w.docket c.eventId c.investigationId) :
    Simulates rt (· = .dispatched config.maxResend) w
      (exec (dispatchAll rt config items result cs) w).2 := by
  induction cs generalizing w result with
  | nil => exact Steps.refl _
  | cons c cs ih =>
    obtain ⟨hne, hnodup⟩ := List.nodup_cons.mp hcs
    have hc := h c List.mem_cons_self
    rcases hone : exec (dispatchOne rt config (items c.eventId) c) w with ⟨r, w₁⟩
    obtain ⟨result', hrest⟩ := exec_dispatchAll_cons items result c cs w
    rw [hone] at hrest
    rw [hrest]
    rcases dispatchOne_cases hone with rfl | ⟨t, ht, hd⟩
    · exact ih hnodup fun c' hc' => h c' (List.mem_cons_of_mem _ hc')
    · refine IsTrans.trans (r := Simulates rt (· = .dispatched config.maxResend)) _ w₁ _ ?_
        (ih hnodup fun c' hc' => ?_)
      · obtain ⟨inv, hinv⟩ := hc.latest
        rw [Simulates, hd]
        refine (Steps.tick ht.passes).trans (Steps.single rfl ?_)
        exact .dispatched hc.pending hinv hc.unsent hc.few
      · rw [hd]
        have hmem : c'.eventId ∈ cs.map (·.eventId) := List.mem_map_of_mem hc'
        have hother : c.eventId ≠ c'.eventId := fun he => by
          rw [← he] at hmem
          exact hne hmem
        exact (h c' (List.mem_cons_of_mem _ hc')).tick.dispatch hother

/-- The request's event waits for a human and its investigation is the event's latest one. -/
structure RequestCore.Current (d : Docket) (r : RequestCore) : Prop where
  pending : d.events[r.eventId]? = some .humanPending
  latest : ∃ inv, LatestOf d.investigations r.eventId r.investigationId inv

def Docket.SentCurrent (d : Docket) : Prop := ∀ r ∈ d.requests, r.status = .sent → r.Current d

theorem Docket.SentCurrent.dispatched {d : Docket} {e i : ℕ} {inv : InvestigationCore}
    (h : d.SentCurrent) (pending : d.events[e]? = some .humanPending)
    (latest : LatestOf d.investigations e i inv) : (d.dispatch e i).SentCurrent := by
  have keep : ∀ r : RequestCore, r.Current d → r.Current (d.dispatch e i) := by
    rintro r ⟨hp, inv', hinv'⟩
    obtain ⟨inv'', hrow⟩ : ∃ inv'', (d.dispatch e i).investigations[r.investigationId]? =
        some inv'' := by
      by_cases hi : i = r.investigationId
      · exact ⟨_, Rows.getElem?_update.mpr (.inl ⟨hi, inv', hinv'.row, rfl⟩)⟩
      · exact ⟨_, Rows.getElem?_update.mpr (.inr ⟨hi, hinv'.row⟩)⟩
    exact ⟨hp, inv'', hinv'.of_spans (dispatch_spans e i) hrow⟩
  intro r hr hs
  rcases List.mem_append.mp hr with hr | hr
  · exact keep r (h r hr hs)
  · obtain rfl := List.mem_singleton.mp hr
    exact keep _ ⟨pending, inv, latest⟩

theorem Docket.Steps.sentCurrent {k : ClockKind} {maxResend : ℤ} {d d' : Docket}
    (h : Steps k (· = .dispatched maxResend) d d') (hd : d.SentCurrent) : d'.SentCurrent := by
  refine h.invariant (fun a d d' ha hs hd => ?_) hd
  rcases ha with rfl | rfl
  · cases hs
    exact fun r hr hsent => ⟨(hd r hr hsent).pending, (hd r hr hsent).latest⟩
  · cases hs with
    | dispatched pending latest unsent few => exact hd.dispatched pending latest

theorem cancelObsolete_sentCurrent (tie : ℕ → ℕ) (db : Db) (t : Time) :
    (Db.docket { db with requests := db.requests.map (cancelObsolete tie db) } t).SentCurrent := by
  intro c hc hs
  obtain ⟨r, -, rfl⟩ : ∃ r ∈ db.requests, (cancelObsolete tie db r).core = c := by
    simpa [Db.docket] using hc
  by_cases hobs : r.status = .sent ∧ isObsolete tie db r
  · simp [cancelObsolete, hobs, HumanReviewRequest.core, HumanReviewRequest.withStatus] at hs
  · rw [cancelObsolete, if_neg hobs] at hs ⊢
    have hcur : ¬ isObsolete tie db r := fun ho => hobs ⟨hs, ho⟩
    unfold isObsolete at hcur
    split at hcur
    · simp at hcur
    · rename_i event hevent
      split at hcur
      · simp at hcur
      · rename_i hstatus
        split at hcur
        · simp at hcur
        · rename_i latest inv hlatest
          obtain rfl : latest = r.investigationId := by simpa using hcur
          refine ⟨?_, inv.core, latestInvestigation_latestOf hlatest⟩
          simpa [Db.docket, HumanReviewRequest.core, hevent] using hstatus

theorem expireStale_retires (cutoff : Time) (r : HumanReviewRequest) :
    r.core.Retires (expireStale cutoff r).core := by
  unfold expireStale
  split
  · rename_i h
    exact withStatus_retires .expired (by decide) (by decide) h.1
  · exact .refl _

theorem cancelObsolete_retires (tie : ℕ → ℕ) (db : Db) (r : HumanReviewRequest) :
    r.core.Retires (cancelObsolete tie db r).core := by
  unfold cancelObsolete
  split
  · rename_i h
    exact withStatus_retires .cancelled (by decide) (by decide) h.1
  · exact .refl _

theorem simulates_mapRequests {A : Act → Prop} (hA : A .moved)
    {f : Db → HumanReviewRequest → HumanReviewRequest}
    (h : ∀ db (r : HumanReviewRequest), r.core.Retires (f db r).core) :
    Respects (Simulates rt A)
      (Session.modify fun db => { db with requests := db.requests.map (f db) }) :=
  simulates_modify hA fun db t => .moved (d := db.docket t) (map_retires (h db) db.requests)

theorem sent_dispatchAll_simulates {A : Act → Prop} (hA : A (.dispatched config.maxResend))
    {items : ℕ → DispatchEnv} {result : HumanReviewRunResult} {tie : ℕ → ℕ} {n : ℕ} {w : World}
    {s : Except Exn HumanReviewRunResult × World}
    (h : exec (dispatchAll rt config items result
      (pickDispatchCandidates tie config.maxResend n w.db)) w = s) : Simulates rt A w s.2 := by
  subst h
  refine Simulates.mono (dispatchAll_simulates pickDispatchCandidates_nodup fun c hc => ?_)
    fun a ha => ha ▸ hA
  exact dispatchable_of_mem hc

theorem humanReviewRun_simulates {env : HumanReviewRunEnv} {limit : Option ℤ} {useLock : Bool} :
    Respects (Simulates rt fun a => a = .moved ∨ a = .dispatched config.maxResend)
      (humanReviewRun rt config env limit useLock) := by
  intro w
  refine simulates_transaction_at ?_
  split
  · exact Steps.refl _
  split
  · exact Steps.refl _
  refine rel_bind (simulates_utcNow env.expireAt w) fun now w₁ _ => ?_
  refine rel_bind (respects_query _ w₁) fun before w₂ _ => ?_
  refine rel_bind (simulates_mapRequests (.inl rfl) (fun _ => expireStale_retires _) w₂)
    fun _ w₃ _ => ?_
  refine rel_bind (respects_query _ w₃) fun unexpired w₄ _ => ?_
  refine rel_bind (simulates_mapRequests (.inl rfl) (cancelObsolete_retires env.tie) w₄)
    fun _ w₅ _ => ?_
  refine rel_bind (respects_query _ w₅) fun remaining w₆ _ => ?_
  refine rel_bind (respects_sqlLimit _ w₆) fun n w₇ _ => ?_
  refine rel_bind (respects_fallible _ w₇) fun _ w₈ _ => ?_
  rw [exec_query_bind]
  refine rel_bind (respects_fallible _ w₈) fun _ w₉ hadapter => ?_
  -- the candidates are those of the state in which they are dispatched
  obtain ⟨-, rfl⟩ := exec_fallible_ok.mp hadapter
  refine rel_bind (sent_dispatchAll_simulates (Or.inr rfl) rfl) fun result w₉ _ => ?_
  exact (respects_fallible _).bind (fun _ => respects_pure _) w₉

theorem humanReviewRun_sentCurrent {env : HumanReviewRunEnv} {limit : Option ℤ} {useLock : Bool}
    {w w' : World} {r : HumanReviewRunResult}
    (h : exec (humanReviewRun rt config env limit useLock) w = (.ok r, w'))
    (hlock : r.skippedLock = false) (henabled : config.enabled = true) :
    w'.docket.SentCurrent := by
  have h := exec_atomically_ok.mp h
  split at h
  · simp only [exec_pure, Prod.mk.injEq, Except.ok.injEq] at h
    rw [← h.1] at hlock
    cases hlock
  split at h
  · rename_i hdisabled
    simp [henabled] at hdisabled
  obtain ⟨now, w₁, -, h⟩ := exec_bind_ok.mp h
  obtain ⟨before, w₂, -, h⟩ := exec_bind_ok.mp h
  obtain ⟨_, w₃, -, h⟩ := exec_bind_ok.mp h
  obtain ⟨unexpired, w₄, -, h⟩ := exec_bind_ok.mp h
  obtain ⟨_, w₅, hcancel, h⟩ := exec_bind_ok.mp h
  have hcurrent : w₅.docket.SentCurrent := by
    cases hcancel
    exact cancelObsolete_sentCurrent env.tie w₄.db w₄.out.clock
  rw [exec_query_bind] at h
  obtain ⟨n, w₆, hlimit, h⟩ := exec_bind_ok.mp h
  obtain ⟨-, -, rfl⟩ := exec_sqlLimit_ok.mp hlimit
  simp only [exec_fallible_bind_ok, exec_query_bind] at h
  obtain ⟨-, -, h⟩ := h
  obtain ⟨result, w₆, hall, h⟩ := exec_bind_ok.mp h
  simp only [exec_fallible_bind_ok, exec_pure, Prod.mk.injEq] at h
  obtain ⟨-, -, rfl⟩ := h
  have hsteps : Simulates rt (· = .dispatched config.maxResend) w₅ w₆ :=
    sent_dispatchAll_simulates (A := (· = .dispatched config.maxResend)) rfl hall
  exact hsteps.sentCurrent hcurrent

theorem findRepliedRequest_ok {env : ReplyEnv} {db : Db} {rawContent content : String}
    {requestId : Option ℕ} {rid : ℕ} {req : HumanReviewRequest}
    (h : findRepliedRequest env db rawContent requestId = .ok (rid, req, content)) :
    db.requests[rid]? = some req ∧ req.status = .sent := by
  unfold findRepliedRequest at h
  split at h
  · split at h
    · split at h
      · simp only [Except.ok.injEq, Prod.mk.injEq] at h
        obtain ⟨rfl, rfl, -⟩ := h
        exact ⟨‹_›, ‹_›⟩
      · cases h
    · cases h
  · split at h
    · cases h
    · split at h
      · rename_i hfind
        simp only [Except.ok.injEq, Prod.mk.injEq] at h
        obtain ⟨rfl, rfl, -⟩ := h
        have hmem := Rows.mem_of_mem_orderLimit (List.mem_of_head? hfind)
        simp only [Rows.mem_select, Bool.and_eq_true, beq_iff_eq] at hmem
        exact ⟨hmem.1, hmem.2.1⟩
      · cases h

theorem recordReply_docket {rid : ℕ} {req : HumanReviewRequest} {response : HumanReviewResponse}
    {answeredAt t : Time} {db : Db} : (recordReply config rid req response answeredAt db).docket t =
      (db.docket t).answer rid req.core config.reinvestigationEnabled := by
  have hrequests : (db.requests.modify rid fun r => { r with
      status := .answered, answeredAt := some answeredAt }).map (·.core) =
      (db.requests.map (·.core)).modify rid fun r => { r with status := .answered } :=
    Rows.map_update fun _ => rfl
  have hinvestigations : (db.investigations.modify req.investigationId fun i =>
      if i.status = .needsHuman then { i with status := .completed } else i).map (·.core) =
      (db.investigations.map (·.core)).modify req.investigationId fun i =>
        if i.status = .needsHuman then i.withStatus .completed else i := by
    refine Rows.map_update fun i => ?_
    by_cases h : i.status = .needsHuman
    · simp [h, Investigation.core, InvestigationCore.withStatus]
    · simp [h, Investigation.core]
  have hcore : req.core.eventId = req.eventId ∧ req.core.investigationId = req.investigationId :=
    ⟨rfl, rfl⟩
  cases hre : config.reinvestigationEnabled <;>
    simp [recordReply, Docket.answer, Db.docket, hre, hrequests, hinvestigations,
      setStatus_status, hcore]

/-- A reply that finds its request answers it, and any other one changes nothing. -/
theorem handleReply_simulates {env : ReplyEnv} {rawContent : String}
    {externalMsgId responder : Option String} {requestId : Option ℕ} :
    Respects (Simulates rt (· = .answered config.reinvestigationEnabled))
      (handleReply rt config env rawContent externalMsgId responder requestId) := by
  intro w
  refine simulates_transaction_at ?_
  refine rel_bind (respects_fallible _ w) fun _ w₁ hfind => ?_
  obtain ⟨-, rfl⟩ := exec_fallible_ok.mp hfind
  rw [exec_query_bind]
  split
  · exact Steps.refl _
  · rename_i rid req content hreplied
    have hrow : w.db.requests[rid]? = some req := (findRepliedRequest_ok hreplied).1
    -- until the reply is recorded only the clock and Redis have changed
    have record {response : HumanReviewResponse} {answeredAt : Time} {result : HandleReplyResult}
        {w' : World} (hdb : w'.db = w.db) : Simulates rt
        (· = .answered config.reinvestigationEnabled) w' (exec (do
          Session.modify (recordReply config rid req response answeredAt)
          fallible (env.faults .commit)
          pure result) w').2 := by
      refine rel_bind (Steps.single rfl ?_) fun _ w₁ _ =>
        (respects_fallible _).bind (fun _ => respects_pure _) w₁
      change Step rt.clock (.answered config.reinvestigationEnabled) w'.docket ((recordReply config rid req response answeredAt
        w'.db).docket w'.out.clock)
      rw [recordReply_docket, ← World.docket]
      have hdocket : w'.docket.requests = w.db.requests.map (·.core) := by
        rw [World.docket, hdb]
        rfl
      refine .answered ?_ _
      rw [hdocket, List.getElem?_map, hrow]
      rfl
    refine rel_bind (respects_fallible _ w) fun _ w₁ hexists => ?_
    obtain ⟨-, rfl⟩ := exec_fallible_ok.mp hexists
    split
    · exact Steps.refl _
    · exact Steps.refl _
    · refine rel_bind (simulates_utcNow env.answeredAt w) fun answeredAt w₁ h₁ => ?_
      have hdb₁ : w₁.db = w.db := (respects_utcNow (r := (· = ·)) rt _).of_exec h₁ |>.symm
      dsimp only
      split
      · refine rel_bind (respects_fallible _ w₁) fun _ w₂ h₂ => ?_
        obtain ⟨-, rfl⟩ := exec_fallible_ok.mp h₂
        refine rel_bind (simulates_utcNow env.markedAt w₁) fun markedAt w₃ h₃ => ?_
        have hdb₃ : w₃.db = w₁.db := (respects_utcNow (r := (· = ·)) rt _).of_exec h₃ |>.symm
        refine rel_bind (simulates_setRedis (fun _ => rfl) w₃) fun _ w₄ h₄ => record ?_
        have hdb₄ : w₄.db = w₃.db := (respects_setRedis (r := (· = ·)) _).of_exec h₄ |>.symm
        rw [hdb₄, hdb₃, hdb₁]
      · exact record hdb₁

theorem cancelRequest_simulates {commitFault : Option Exn} {requestId : ℕ} :
    Respects (Simulates rt (· = .moved)) (cancelRequest commitFault requestId) := by
  intro w
  refine simulates_transaction_at ?_
  rw [exec_query_bind]
  split
  · rename_i req hrow
    split
    · rename_i hsent
      refine rel_bind (Steps.single rfl ?_) fun _ w₁ _ =>
        (respects_fallible _).bind (fun _ => respects_pure _) w₁
      have hrequests : (w.db.requests.modify requestId (·.withStatus .cancelled)).map (·.core) =
          (w.db.requests.map (·.core)).modify requestId fun r => { r with status := .cancelled } :=
        Rows.map_update fun _ => rfl
      refine .moved (d := w.docket) ?_
      change List.Forall₂ _ _ ((w.db.requests.modify requestId (·.withStatus .cancelled)).map (·.core))
      rw [hrequests]
      refine Rows.forall₂_update .refl fun r hr => ?_
      -- the row that is cancelled is the one that was checked
      have hcore : w.docket.requests[requestId]? = some req.core := by
        rw [World.docket, Db.docket, List.getElem?_map, show w.db.requests[requestId]? = _ from hrow]
        rfl
      obtain rfl := Option.some.inj (hcore.symm.trans hr)
      exact withStatus_retires .cancelled (by decide) (by decide) hsent
    · exact Steps.refl _
  · exact Steps.refl _

end Minsight

import Minsight.Agent.Bounds
import Minsight.Agent.Effects

/-! # Failing skills

A skill that fails is recorded and the investigation ends with a conclusion, unless a
database statement of the skill fails: then the transaction takes no further statement and
the investigation is lost.
-/

namespace Minsight

open Tx Session

/-- Closure is evaluated without an exception, whatever was called. -/
def ClosureTotal (template : Option Json) (config : ClosureConfig) : Prop :=
  ∀ conclusion skillsCalled, ∃ closure,
    evaluateClosure conclusion skillsCalled template config = .ok closure

section Total

variable {rt : Runtime} {config : InvestigationConfig} {env : AgentEnv}
  {ctx : InvestigationContext} {st : LoopState} {step calls attempt : ℕ} {call : ToolCallRequest}

theorem updateInvestigation_total {id : ℕ} {f : Investigation → Investigation} :
    Total (updateInvestigation id f) :=
  total_write _

theorem observe_total {e : AgentEvent} : Total (observe e) := total_write _

theorem saveMessage_total {id sequence : ℕ} {role : MessageRole} {content : String}
    {toolCallId : Option String} : Total (saveMessage id sequence role content toolCallId) :=
  total_write _

theorem utcNow_total {shown : Time} : Total (utcNow rt shown) :=
  (total_read _).bind fun _ => (total_write _).bind fun _ => total_pure

theorem answerCall_total {id : ℕ} {content : String} : Total (answerCall id call content st) :=
  saveMessage_total.bind fun _ => total_pure

theorem attemptSkill_total : Total (attemptSkill rt env ctx step calls attempt call) := by
  intro w
  obtain ⟨now, hreturned, -⟩ := exec_attemptSkill rt env ctx call step calls attempt w
  exact ⟨_, _, Prod.ext hreturned rfl⟩

theorem attemptSkills_total (remaining : ℕ) :
    Total (attemptSkills rt env ctx step calls attempt call remaining) := by
  induction remaining generalizing attempt with
  | zero => exact attemptSkill_total
  | succ remaining ih =>
    refine attemptSkill_total.bind fun last => ?_
    split
    · exact total_pure
    · exact ih

theorem handleSkill_total (hretries : 0 ≤ config.skillMaxRetries) :
    Total (handleSkill rt config env ctx step call st) := by
  unfold handleSkill
  dsimp only
  split
  · exact total_pure
  · unfold executeSkillWithRetry
    rw [if_neg (not_lt.mpr hretries)]
    exact (attemptSkills_total _).bind fun _ => answerCall_total.bind fun _ => total_pure

theorem handleSubmit_total (hclosure : ClosureTotal (closureTemplate ctx) config.closure) :
    Total (handleSubmit rt config env ctx step call st) := by
  unfold handleSubmit
  split
  · exact answerCall_total.bind fun _ => total_pure
  · rename_i conclusion _
    obtain ⟨closure, hevaluated⟩ := hclosure conclusion st.skillsCalled
    rw [closureTemplate] at hevaluated
    rw [hevaluated]
    dsimp only
    split
    · exact updateInvestigation_total.bind fun _ => total_pure
    · refine utcNow_total.bind fun now => updateInvestigation_total.bind fun _ =>
        (total_read _).bind fun retries => ?_
      split
      · exact updateInvestigation_total.bind fun _ => total_pure
      · exact observe_total.bind fun _ => answerCall_total.bind fun _ => total_pure

variable (hretries : 0 ≤ config.skillMaxRetries)
  (hclosure : ClosureTotal (closureTemplate ctx) config.closure)

include hretries hclosure

theorem handleCalls_total (l : List ToolCallRequest) :
    Total (handleCalls rt config env ctx step l st) := by
  induction l generalizing st with
  | nil => exact total_pure
  | cons call l ih =>
    refine Total.bind ?_ fun flow => ?_
    · unfold handleCall
      split
      · exact handleSubmit_total hclosure
      · exact handleSkill_total hretries
    · cases flow with
      | next st => exact ih
      | done result => exact total_pure

theorem agentStep_total : Total (agentStep rt config env ctx step st) := by
  refine updateInvestigation_total.bind fun _ => observe_total.bind fun _ => ?_
  split
  · exact total_pure
  · refine updateInvestigation_total.bind fun _ => ?_
    dsimp only
    split
    · refine Total.bind ?_ fun _ => total_pure
      unfold remind
      split
      · exact total_pure
      · exact saveMessage_total.bind fun _ => saveMessage_total.bind fun _ => total_pure
    · exact saveMessage_total.bind fun _ => handleCalls_total hretries hclosure _

theorem agentSteps_total (remaining : ℕ) :
    Total (agentSteps rt config env ctx step st remaining) := by
  induction remaining generalizing step st with
  | zero => exact updateInvestigation_total.bind fun _ => total_pure
  | succ remaining ih =>
    refine (agentStep_total hretries hclosure).bind fun flow => ?_
    cases flow with
    | next st => exact ih
    | done result => exact total_pure

theorem agentRun_total (rt : Runtime) (env : AgentEnv) : Total (agentRun rt config env ctx) :=
  saveMessage_total.bind fun _ => saveMessage_total.bind fun _ =>
    agentSteps_total hretries hclosure _

end Total

def World.trace (w : World) : List AgentEvent × Bool × List InvestigationToolCall :=
  (w.out.agentLog, w.failed, w.db.toolCalls)

abbrev SameTrace (w w' : World) : Prop := w'.trace = w.trace

/-- The statements of `_investigate_event` after its agent loop. -/
def afterLoop (rt : Runtime) (config : InvestigationConfig) (env : InvestigationEnv)
    (investigationId eventId : ℕ) (recommendedSkills : List String) (start : ℕ)
    (loopResult : AgentLoopResult) : Session ℕ := do
  Session.statement (env.faults .refresh)
  let toolCalls ← Session.query fun db =>
    db.toolCalls.filter fun tc => tc.investigationId == investigationId
  let result := supervised rt config toolCalls recommendedSkills loopResult
  let finishedAt ← utcNow rt env.finishedAt
  Tx.fallible (env.faults .cancelObsolete)
  Session.modify (recordOutcome investigationId eventId finishedAt result)
  pure start

/-- Nothing but a skill fails in an investigation. -/
structure OnlySkillsFail (config : InvestigationConfig) (env : InvestigationEnv) (db : Db) :
    Prop where
  faults : ∀ point, env.faults point = none
  retries : 0 ≤ config.skillMaxRetries
  closure : ∀ sop ∈ db.sops, ClosureTotal sop.hypothesisTemplate config.closure

theorem closureTotal_none (config : ClosureConfig) : ClosureTotal none config := by
  intro conclusion skillsCalled
  unfold evaluateClosure
  split
  · exact ⟨_, rfl⟩
  · split
    · exact ⟨_, rfl⟩
    · exact ⟨_, rfl⟩

section

variable {rt : Runtime} {config : InvestigationConfig} {env : InvestigationEnv} {tie : ℕ → ℕ}
  {e i start : ℕ} {skills : List String} {result : AgentLoopResult} {w w' : World}

theorem activeSop_mem {db : Db} {category : Option String} {s : ℕ × InvestigationSop}
    (h : activeSop tie db category = some s) : s.2 ∈ db.sops := by
  unfold activeSop at h
  split at h
  · cases h
  · have hmem := Rows.mem_of_mem_orderLimit (List.mem_of_head? h)
    exact List.mem_of_getElem? (Rows.mem_select.mp hmem).1

theorem afterLoop_sameTrace :
    Respects SameTrace (afterLoop rt config env i e skills start result) :=
  (respects_statement _).bind fun _ => (respects_query _).bind fun _ =>
    Respects.bind (fun _ => rfl) fun _ => (respects_fallible _).bind fun _ =>
    Respects.bind (fun _ => rfl) fun _ => respects_pure _

theorem afterLoop_ok {s : ℕ} (h : exec (afterLoop rt config env i e skills start result) w =
    (.ok s, w')) : w.failed = false ∧ ∃ t result', w'.db = recordOutcome i e t result' w.db := by
  simp only [afterLoop, exec_statement_bind_ok, exec_query_bind, exec_utcNow_bind,
    exec_fallible_bind_ok, exec_modify_bind, exec_pure, Prod.mk.injEq] at h
  obtain ⟨hfailed, -, -, -, rfl⟩ := h
  exact ⟨hfailed, _, _, rfl⟩

theorem afterLoop_returns (rt : Runtime) (config : InvestigationConfig) (i e : ℕ)
    (skills : List String) (start : ℕ) (result : AgentLoopResult)
    (hfaults : ∀ point, env.faults point = none) (h : w.failed = false) :
    ∃ w', exec (afterLoop rt config env i e skills start result) w = (.ok start, w') := by
  have hstatement : exec (statement (env.faults .refresh)) w = (.ok (), w) := by
    simp [statement, hfaults, h, exec_bind, fallible]
  unfold afterLoop
  rw [exec_bind_of_ok hstatement, exec_query_bind, exec_utcNow_bind, hfaults]
  exact ⟨_, rfl⟩

theorem logAgentStart_returns (rt : Runtime) (shown : Time) (e : ℕ) (w : World) :
    ∃ start w', exec (logAgentStart rt shown e) w = (.ok start, w') ∧
      (w'.trace, w'.db) = (w.trace, w.db) := by
  have htotal : Total (logAgentStart rt shown e) :=
    utcNow_total.bind fun _ => (total_read _).bind fun _ => (total_read _).bind fun _ =>
      (total_read _).bind fun _ => (total_write _).bind fun _ => total_pure
  obtain ⟨start, w', h⟩ := htotal w
  exact ⟨start, w', h, congrArg (fun r => (r.2.trace, r.2.db)) h.symm⟩

theorem investigateEvent_opens (rt : Runtime) (config : InvestigationConfig) (tie : ℕ → ℕ)
    (hfaults : ∀ point, env.faults point = none)
    (hevent : e < w.db.events.length) :
    ∃ w₁ ctx start, SameTrace w w₁ ∧ ctx.investigationId = w.db.investigations.length ∧
      (∀ s, ctx.sop = some s → s.2 ∈ w.db.sops) ∧
      (w₁.db.investigations[w.db.investigations.length]?).map (·.eventId) = some e ∧
      exec (investigateEvent rt config env tie e) w = exec (agentRun rt config env.agent ctx >>=
        afterLoop rt config env w.db.investigations.length e
          ((ctx.sop.map fun s => s.2.recommendedSkills).getD []) start) w₁ := by
  let now := rt.clock.reading w.out.clock env.startedAt
  let db₀ := (w.db.addInvestigation (newInvestigation config e now)).setEventStatus e .investigating
  have hstart : exec (startInvestigation rt config env e) w =
      (.ok w.db.investigations.length, { w with db := db₀, out := { w.out with clock := now } }) := by
    simp only [startInvestigation, exec_utcNow_bind, exec_query_bind, exec_modify_bind, hfaults]
    rfl
  obtain ⟨event, hevent₀⟩ : ∃ event, db₀.events[e]? = some event := by
    refine ⟨_, List.getElem?_eq_getElem ?_⟩
    simpa [db₀, Db.setEventStatus, Db.addInvestigation] using hevent
  let ctx := buildInvestigationContext tie config w.db.investigations.length e event db₀
  let setSop : Investigation → Investigation := fun i => { i with sopId := ctx.sop.map Prod.fst }
  obtain ⟨start, w₁, hlog, hsame⟩ := logAgentStart_returns rt env.agentAt e
    { w with
      db := { db₀ with
        investigations := db₀.investigations.modify w.db.investigations.length setSop }
      out := { w.out with clock := now } }
  obtain ⟨htrace, hdb⟩ := Prod.mk.inj hsame
  refine ⟨w₁, ctx, start, htrace, rfl, fun s hs => activeSop_mem hs, ?_, ?_⟩
  · rw [hdb]
    change (((w.db.investigations ++ [newInvestigation config e now]).modify
      w.db.investigations.length setSop)[w.db.investigations.length]?).map _ = _
    rw [Rows.update_insert, List.getElem?_append_right le_rfl, Nat.sub_self]
    rfl
  · unfold investigateEvent
    rw [exec_bind_of_ok hstart, exec_query_bind]
    simp only [id, hevent₀]
    rw [updateInvestigation, exec_modify_bind, exec_bind_of_ok hlog]
    rfl

theorem allowsAgent_owners (investigationId eventId : ℕ) :
    AllowsAgent rt (Keeps fun db => db.investigations.map (·.eventId)) investigationId eventId where
  clock := allowsClock_onDb
  investigation f hf := keeps_modify fun db => by
    have howner (i : Investigation) : (f i).eventId = i.eventId :=
      congrArg InvestigationCore.eventId (hf i)
    exact Rows.map_update_eq howner
  message _ := keeps_modify fun _ => rfl
  toolCall _ := keeps_modify fun _ => rfl
  correlate _ _ := keeps_modify fun _ => rfl
  observe _ := respects_setRedis _
  fail := failTransaction_respects fun _ => rfl

end

/--
The investigation ends with a conclusion for its event, and every attempt that failed, or
had a failing statement, is recorded without success.
-/
def InvestigationKept (rt : Runtime) (config : InvestigationConfig) (env : InvestigationEnv)
    (tie : ℕ → ℕ) (e : ℕ) (w : World) : Prop :=
  ∃ start w' log, exec (investigateEvent rt config env tie e) w = (.ok start, w') ∧
    w'.out.agentLog = w.out.agentLog ++ log ∧
    (w'.db.investigations[w.db.investigations.length]?).map (·.eventId) = some e ∧
    (∃ c ∈ w'.db.conclusions, c.investigationId = w.db.investigations.length) ∧
    ∀ n skill success failed, .attempt n skill success failed ∈ log →
      success = false ∨ failed = true →
      ∃ row ∈ w'.db.toolCalls, row.investigationId = w.db.investigations.length ∧
        row.skillName = skill ∧ row.success = false

/-- No skill that the investigation attempts has a failing statement. -/
def NoStatementFails (rt : Runtime) (config : InvestigationConfig) (env : InvestigationEnv)
    (tie : ℕ → ℕ) (e : ℕ) (w : World) : Prop :=
  ∀ log, (exec (investigateEvent rt config env tie e) w).2.out.agentLog = w.out.agentLog ++ log →
    ∀ a ∈ log, a.statementFailed = false

/-- Failing skills never lose an investigation exactly when none has a failing statement. -/
theorem skill_failures_kept_iff (rt : Runtime) (config : InvestigationConfig)
    (env : InvestigationEnv) (tie : ℕ → ℕ) (e : ℕ) (w : World) (hopen : w.failed = false)
    (hevent : e < w.db.events.length) (honly : OnlySkillsFail config env w.db) :
    InvestigationKept rt config env tie e w ↔ NoStatementFails rt config env tie e w := by
  obtain ⟨w₁, ctx, start, htrace₁, hid, hsop, howner, hexec⟩ :=
    investigateEvent_opens rt config tie honly.faults hevent
  have hclosure : ClosureTotal (closureTemplate ctx) config.closure := by
    unfold closureTemplate
    cases hs : ctx.sop with
    | none => exact closureTotal_none _
    | some s => exact honly.closure s.2 (hsop s hs)
  obtain ⟨result, w₂, hagent⟩ := agentRun_total honly.retries hclosure rt env.agent w₁
  obtain ⟨p, hreach, hrecord, -⟩ := agentRun_reaches rt config env.agent ctx w₁
  have hfailure := failureTold_reached hreach
  have hevidence := evidence_reached hreach
  rw [hagent] at hrecord
  rw [exec_bind_of_ok hagent] at hexec
  have hlog₂ : w₂.out.agentLog = w.out.agentLog ++ p.since (w₁.loopRecord ctx.investigationId) := by
    have hopened : w₁.out.agentLog = w.out.agentLog := congrArg Prod.fst htrace₁
    rw [← hopened]
    exact (congrArg LoopRecord.log hrecord).trans (log_eq_since hfailure.grows)
  have hfailed₂ : w₂.failed =
      (p.since (w₁.loopRecord ctx.investigationId)).any AgentEvent.statementFailed := by
    have hopened : w₁.failed = w.failed := congrArg (fun t => t.2.1) htrace₁
    have h := (congrArg LoopRecord.failed hrecord).trans hfailure.failed
    simpa [World.loopRecord, hopened, hopen] using h
  have hend : (exec (investigateEvent rt config env tie e) w).2.trace = w₂.trace := by
    rw [hexec]
    exact afterLoop_sameTrace w₂
  have hloop (log : List AgentEvent) :
      (exec (investigateEvent rt config env tie e) w).2.out.agentLog = w.out.agentLog ++ log ↔
        log = p.since (w₁.loopRecord ctx.investigationId) := by
    have hsame : (exec (investigateEvent rt config env tie e) w).2.out.agentLog =
        w₂.out.agentLog := congrArg Prod.fst hend
    rw [hsame, hlog₂, List.append_cancel_left_eq]
    exact eq_comm
  constructor
  · rintro ⟨start', w', -, hrun, -⟩ log hlog a ha
    obtain rfl := (hloop log).mp hlog
    rw [hexec] at hrun
    obtain ⟨hnone, -⟩ := afterLoop_ok hrun
    rw [hfailed₂, List.any_eq_false] at hnone
    simpa using hnone a ha
  · intro hnone
    have hunfailed := hnone _ ((hloop _).mpr rfl)
    have hopen₂ : w₂.failed = false := by
      rw [hfailed₂, List.any_eq_false]
      exact fun a ha => by simp [hunfailed a ha]
    obtain ⟨w', hafter⟩ := afterLoop_returns rt config w.db.investigations.length e
      ((ctx.sop.map fun s => s.2.recommendedSkills).getD []) start result honly.faults hopen₂
    have hrun := hexec.trans hafter
    obtain ⟨-, t, result', hdb⟩ := afterLoop_ok hafter
    refine ⟨start, w', p.since (w₁.loopRecord ctx.investigationId), hrun, ?_, ?_, ?_, ?_⟩
    · exact (congrArg (fun r => r.2.out.agentLog) hrun).symm.trans ((hloop _).mpr rfl)
    · have howners : w'.db.investigations.map (·.eventId) =
          w₁.db.investigations.map (·.eventId) := by
        have hloops := (agentRun_respects (allowsAgent_owners _ _)).of_exec hagent
        have hoff (i : Investigation) : ({ i with
            status := finalStatus result', finishedAt := some t } : Investigation).eventId =
            i.eventId := rfl
        rw [hdb, recordOutcome]
        exact (Rows.map_update_eq hoff).trans hloops
      rw [← List.getElem?_map, howners, List.getElem?_map]
      exact howner
    · rw [hdb]
      exact ⟨_, List.mem_append_right _ (List.mem_singleton_self _), rfl⟩
    · rintro n skill success failed hmem hfails
      have hfalse : failed = false := hunfailed _ hmem
      obtain rfl : success = false := hfails.resolve_right (by simp [hfalse])
      obtain ⟨rows, hrows, hids, houtcomes⟩ := hevidence.rows
      have houtcome : (skill, false) ∈ attemptOutcomes (p.since (w₁.loopRecord ctx.investigationId)) :=
        List.mem_filterMap.mpr ⟨_, hmem, rfl⟩
      rw [← houtcomes] at houtcome
      obtain ⟨row, hrow, hpair⟩ := List.mem_map.mp houtcome
      obtain ⟨rfl, hsuccess⟩ := Prod.mk.inj hpair
      have hcalls : w'.db.toolCalls = w₁.db.toolCalls ++ rows := by
        rw [hdb]
        exact (congrArg LoopRecord.toolCalls hrecord).trans hrows
      exact ⟨row, hcalls ▸ List.mem_append_right _ hrow, (hids row hrow).trans hid, rfl, hsuccess⟩

/-- One event to investigate. -/
def skillFailureWorld : World where
  db := { events := [{ eventKey := "host|user", createdAt := 0 }] }

def failedSkillInvestigation : InvestigationEnv where
  startedAt := 0
  agent := failedSkillEnv
  finishedAt := 0

/-- The same investigation when the skill fails in a statement. -/
def failedStatementInvestigation : InvestigationEnv where
  startedAt := 0
  agent := { failedSkillEnv with
    skill := fun _ _ _ => { result := .error .statement, statementFails := true } }
  finishedAt := 0

theorem skill_failures_kept_failed_skill :
    InvestigationKept (sampleRuntime .free []) {} failedSkillInvestigation id 0 skillFailureWorld := by
  have honly : OnlySkillsFail {} failedSkillInvestigation skillFailureWorld.db :=
    ⟨fun _ => rfl, by decide, nofun⟩
  refine (skill_failures_kept_iff (sampleRuntime .free []) {} failedSkillInvestigation id 0
    skillFailureWorld rfl (by decide) honly).mpr fun log hlog => ?_
  have hall : ∀ a ∈ (exec (investigateEvent (sampleRuntime .free []) {} failedSkillInvestigation
      id 0) skillFailureWorld).2.out.agentLog, a.statementFailed = false := by decide +kernel
  rw [hlog] at hall
  exact hall

/-- An investigation whose skill fails in a statement ends without a conclusion. -/
theorem failed_statement_loses_investigation :
    ¬ InvestigationKept (sampleRuntime .free []) {} failedStatementInvestigation id 0
      skillFailureWorld := by
  rintro ⟨start, w', -, hrun, -⟩
  have hraises : (returned (investigateEvent (sampleRuntime .free []) {} failedStatementInvestigation
      id 0) skillFailureWorld).isNone = true := by decide +kernel
  rw [returned, hrun] at hraises
  cases hraises

end Minsight

import Minsight.Agent.Loop
import Minsight.Foundation.Tracks

/-! # The agent loop as a machine

A point of the machine holds the conversation, the tool calls that still wait for a reply,
and what the world has recorded of the loop. The loop moves by the steps of the machine
wherever it stops, and returns only where the machine ends.
-/

namespace Minsight

open Tx Session

structure LoopRecord where
  log : List AgentEvent
  messages : List InvestigationMessage
  toolCalls : List InvestigationToolCall
  closureRetries : Option ℕ
  failed : Bool

def World.loopRecord (investigationId : ℕ) (w : World) : LoopRecord where
  log := w.out.agentLog
  messages := w.db.messages
  toolCalls := w.db.toolCalls
  closureRetries := (w.db.investigations[investigationId]?).map (·.closureRetryCount)
  failed := w.failed

structure LoopPoint where
  step : ℕ := 0
  /-- The tool calls of the last answer that have no reply yet. -/
  pending : List ToolCallRequest := []
  /-- The attempts made for the first pending call, once it is counted. -/
  attempts : Option ℕ := none
  /-- The model was called with the conversation as it stands. -/
  asking : Bool := false
  state : LoopState := {}
  record : LoopRecord

namespace LoopPoint

/-- A message joins the conversation and is stored under the next sequence number. -/
def append (investigationId : ℕ) (m : ChatMessage) (content : String) (p : LoopPoint) :
    LoopPoint :=
  { p with
    asking := false
    state := { p.state with
      messages := p.state.messages ++ [m]
      sequence := p.state.sequence + 1 }
    record := { p.record with
      messages := p.record.messages ++ [{
        investigationId
        role := m.role
        content
        toolCallId := m.toolCallId
        sequence := p.state.sequence }] } }

/-- The model is called. -/
def chat (p : LoopPoint) : LoopPoint :=
  { p with
    step := p.step + 1
    asking := true
    record := { p.record with
      log := p.record.log ++ [.chat (p.step + 1) p.state.messages] } }

/-- The first pending call is counted. -/
def count (call : ToolCallRequest) (p : LoopPoint) : LoopPoint :=
  { p with
    attempts := some 0
    state := { p.state with
      skillCalls := p.state.skillCalls + 1
      skillsCalled := if p.state.skillsCalled.contains call.name then p.state.skillsCalled
        else p.state.skillsCalled ++ [call.name] } }

def attempt (row : InvestigationToolCall) (statementFailed : Bool) (p : LoopPoint) : LoopPoint :=
  { p with
    attempts := some (row.retryCount + 1)
    record := { p.record with
      log := p.record.log ++
        [.attempt p.state.skillCalls row.skillName row.success statementFailed]
      toolCalls := p.record.toolCalls ++ [row]
      failed := p.record.failed || statementFailed } }

def reject (p : LoopPoint) : LoopPoint :=
  { p with record := { p.record with
      closureRetries := p.record.closureRetries.map (· + 1) } }

def resume (p : LoopPoint) : LoopPoint :=
  { p.reject with record := { p.reject.record with
      log := p.reject.record.log ++ [.resumed] } }

def ask (investigationId : ℕ) (m : ChatMessage) (content : String) (p : LoopPoint) : LoopPoint :=
  { p.append investigationId m content with pending := m.toolCalls }

def reply (investigationId : ℕ) (call : ToolCallRequest) (content : String)
    (rest : List ToolCallRequest) (p : LoopPoint) : LoopPoint :=
  { p.append investigationId
      { role := .tool, content := some content, toolCallId := some call.id } content with
    pending := rest
    attempts := none }

end LoopPoint

def reminderMessage : ChatMessage where
  role := .user
  content := some "请调用 Skill 收集证据，完成后必须调用 submit_conclusion 提交结论。"

def assistantMessage (response : LlmResponse) : ChatMessage where
  role := .assistant
  content := if response.content.getD "" = "" then none else some (response.content.getD "")
  toolCalls := response.toolCalls

section

variable (rt : Runtime) (config : InvestigationConfig) (env : AgentEnv)
  (ctx : InvestigationContext)

def attemptRow (step calls attempt : ℕ) (call : ToolCallRequest) (now : Time) :
    InvestigationToolCall :=
  let last := skillResult env (env.skill step calls attempt)
  { investigationId := ctx.investigationId
    stepNumber := step
    skillName := call.name
    skillInput := call.arguments
    skillOutput := last.data
    outputSummary := some last.summary
    success := last.success
    retryCount := attempt
    calledAt := now }

/-- The template closure is evaluated against. -/
def closureTemplate : Option Json := ctx.sop.bind fun s => s.2.hypothesisTemplate

inductive LoopStep : LoopPoint → LoopPoint → Prop
  | chatted {p : LoopPoint} (steps : p.step < config.maxSteps.toNat) (pending : p.pending = [])
      (attempts : p.attempts = none) :
      LoopStep p p.chat
  | reminded {p : LoopPoint} {content : String} (pending : p.pending = []) :
      LoopStep p ((p.append ctx.investigationId
        { role := .assistant, content := some content } content).append ctx.investigationId
        reminderMessage "Reminder: call submit_conclusion when ready.")
  | asked {p : LoopPoint} {response : LlmResponse} (pending : p.pending = [])
      (attempts : p.attempts = none) (asking : p.asking = true)
      (answer : env.chat p.step p.state.messages = .ok response)
      (calls : response.toolCalls ≠ []) :
      LoopStep p (p.ask ctx.investigationId (assistantMessage response)
        (env.dumpMessage (assistantMessage response)))
  | counted {p : LoopPoint} {call : ToolCallRequest} {rest : List ToolCallRequest}
      (pending : p.pending = call :: rest) (skill : call.name ≠ submitConclusionName)
      (attempts : p.attempts = none) :
      LoopStep p (p.count call)
  | attempted {p : LoopPoint} {call : ToolCallRequest} {rest : List ToolCallRequest} {k : ℕ}
      {now : Time} (pending : p.pending = call :: rest) (attempts : p.attempts = some k)
      (calls : (p.state.skillCalls : ℤ) ≤ config.maxSkillCalls)
      (retries : (k : ℤ) ≤ config.skillMaxRetries) :
      LoopStep p (p.attempt (attemptRow env ctx p.step p.state.skillCalls k call now)
        (env.skill p.step p.state.skillCalls k).statementFails)
  | rejected {p : LoopPoint} {call : ToolCallRequest} {rest : List ToolCallRequest}
      (pending : p.pending = call :: rest) (submit : call.name = submitConclusionName) :
      LoopStep p p.reject
  | resumed {p : LoopPoint} {call : ToolCallRequest} {rest : List ToolCallRequest}
      (pending : p.pending = call :: rest) (submit : call.name = submitConclusionName)
      (retries : (p.reject.record.closureRetries.getD 0 : ℤ) ≤ config.maxClosureRetries) :
      LoopStep p p.resume
  | answered {p : LoopPoint} {call : ToolCallRequest} {rest : List ToolCallRequest}
      {content : String} (pending : p.pending = call :: rest)
      (ready : p.attempts = none ∧ call.name = submitConclusionName ∨
        ∃ k, p.attempts = some (k + 1)) :
      LoopStep p (p.reply ctx.investigationId call content rest)

inductive LoopEnd (p : LoopPoint) : AgentLoopResult → Prop
  | accepted {call : ToolCallRequest} {rest : List ToolCallRequest}
      {conclusion : ConclusionPayload} {closure : ClosureResult}
      (pending : p.pending = call :: rest) (submit : call.name = submitConclusionName)
      (attempts : p.attempts = none)
      (parsed : parseConclusion rt call.arguments = some conclusion)
      (evaluated : evaluateClosure conclusion p.state.skillsCalled (closureTemplate ctx)
        config.closure = .ok closure)
      (passed : closure.passed = true) :
      LoopEnd p {
        conclusion := conclusion
        investigationStatus := .completed
        closureResult := some closure
        skillsCalled := p.state.skillsCalled }
  | degraded {result : AgentLoopResult} (status : result.investigationStatus ≠ .completed)
      (verdict : result.conclusion.verdict = .needsHumanReview) : LoopEnd p result

def openingPoint (record : LoopRecord) : LoopPoint :=
  ((LoopPoint.append ctx.investigationId
    { role := .system, content := some (env.prompts ctx).1 } (env.prompts ctx).1
    { record }).append ctx.investigationId
    { role := .user, content := some (env.prompts ctx).2 } (env.prompts ctx).2)

abbrev LoopReaches (record : LoopRecord) (p : LoopPoint) : Prop :=
  Relation.ReflTransGen (LoopStep config env ctx) (openingPoint env ctx record) p

end

section Tracking

variable {rt : Runtime} {config : InvestigationConfig} {env : AgentEnv}
  {ctx : InvestigationContext} {α : Type} {p : LoopPoint} {call : ToolCallRequest}
  {rest : List ToolCallRequest}

/-- A world shows a point when it has recorded what the point holds. -/
def ShowsPoint (ctx : InvestigationContext) (p : LoopPoint) (w : World) : Prop :=
  w.loopRecord ctx.investigationId = p.record

/-- Where a block goes on with the calls `rest`, or ends. -/
def FlowAt (rt : Runtime) (config : InvestigationConfig) (ctx : InvestigationContext) (step : ℕ)
    (rest : List ToolCallRequest) : Flow → LoopPoint → Prop
  | .next st, q => q.step = step ∧ q.pending = rest ∧ q.attempts = none ∧ q.state = st
  | .done result, q => LoopEnd rt config ctx q result

def Attempted (p q : LoopPoint) : Prop :=
  q.step = p.step ∧ q.pending = p.pending ∧ q.state = p.state ∧ ∃ k, q.attempts = some (k + 1)

theorem loopRecord_updateInvestigation {f : Investigation → Investigation} {g : ℕ → ℕ}
    (hf : ∀ i, (f i).closureRetryCount = g i.closureRetryCount) (id : ℕ) (w : World) :
    World.loopRecord id { w with db := { w.db with
        investigations := w.db.investigations.modify id f } } =
      { w.loopRecord id with
        closureRetries := (w.loopRecord id).closureRetries.map g } := by
  have hcount : ((w.db.investigations.modify id f)[id]?).map (·.closureRetryCount) =
      ((w.db.investigations[id]?).map (·.closureRetryCount)).map g := by
    rw [List.getElem?_modify_eq]
    cases w.db.investigations[id]? with
    | none => rfl
    | some i => exact congrArg some (hf i)
  simp only [World.loopRecord, hcount]

theorem showsPoint_updateInvestigation {f : Investigation → Investigation} {w : World}
    (hf : ∀ i, (f i).closureRetryCount = i.closureRetryCount) (hw : ShowsPoint ctx p w) :
    ShowsPoint ctx p { w with db := { w.db with
      investigations := w.db.investigations.modify ctx.investigationId f } } := by
  have h := loopRecord_updateInvestigation (g := id) hf ctx.investigationId w
  rw [ShowsPoint, h, Option.map_id, id]
  exact hw

theorem updateInvestigation_tracks {f : Investigation → Investigation}
    (hf : ∀ i, (f i).closureRetryCount = i.closureRetryCount) :
    Tracks (LoopStep config env ctx) (ShowsPoint ctx) (fun _ q => q = p) p
      (updateInvestigation ctx.investigationId f) :=
  tracks_write (fun _ hw => showsPoint_updateInvestigation hf hw) rfl

theorem answerCall_tracks (content : String) (pending : p.pending = call :: rest)
    (ready : p.attempts = none ∧ call.name = submitConclusionName ∨
      ∃ k, p.attempts = some (k + 1)) :
    Tracks (LoopStep config env ctx) (ShowsPoint ctx)
      (fun st q => q.step = p.step ∧ q.pending = rest ∧ q.attempts = none ∧ q.state = st) p
      (answerCall ctx.investigationId call content p.state) := by
  have hstep : LoopStep config env ctx p (p.reply ctx.investigationId call content rest) :=
    .answered pending ready
  refine Tracks.bind (Q := fun _ q => q = p.reply ctx.investigationId call content rest)
    (tracks_write_step hstep (fun w hw => ?_) rfl) ?_
  · simp only [ShowsPoint, World.loopRecord] at hw ⊢
    simp [LoopPoint.reply, LoopPoint.append, ← hw]
  · rintro ⟨⟩ q rfl
    exact tracks_pure ⟨rfl, rfl, rfl, rfl⟩

theorem exec_attemptSkill (rt : Runtime) (env : AgentEnv) (ctx : InvestigationContext)
    (call : ToolCallRequest) (step calls k : ℕ) (w : World) :
    ∃ now, (exec (attemptSkill rt env ctx step calls k call) w).1 =
        .ok (skillResult env (env.skill step calls k)) ∧
      (exec (attemptSkill rt env ctx step calls k call) w).2.loopRecord ctx.investigationId =
        { w.loopRecord ctx.investigationId with
          log := w.out.agentLog ++ [.attempt calls call.name
            (skillResult env (env.skill step calls k)).success
            (env.skill step calls k).statementFails]
          toolCalls := w.db.toolCalls ++ [attemptRow env ctx step calls k call now]
          failed := w.failed || (env.skill step calls k).statementFails } := by
  have hcorrelate : ∃ w₁, exec (recordCorrelation ctx call (env.skill step calls k)) w =
      (.ok (), w₁) ∧ w₁.loopRecord ctx.investigationId = w.loopRecord ctx.investigationId := by
    unfold recordCorrelation
    split
    · split
      · exact ⟨_, rfl, rfl⟩
      · exact ⟨_, rfl, rfl⟩
    · exact ⟨_, rfl, rfl⟩
  have hfail (w₁ : World) : exec (failTransaction (env.skill step calls k)) w₁ =
      (.ok (), { w₁ with failed := w₁.failed || (env.skill step calls k).statementFails }) := by
    unfold failTransaction
    cases (env.skill step calls k).statementFails with
    | true => simp
    | false => simp
  obtain ⟨w₁, h₁, hrecord⟩ := hcorrelate
  refine ⟨rt.clock.reading w₁.out.clock (env.clock step), ?_⟩
  unfold attemptSkill
  rw [exec_bind_of_ok h₁, exec_bind_of_ok (hfail w₁)]
  simp only [observe, exec_setRedis_bind, exec_utcNow_bind, exec_modify_bind, exec_pure, true_and]
  simp only [World.loopRecord, LoopRecord.mk.injEq] at hrecord ⊢
  obtain ⟨hlog, hmessages, hcalls, hretries, hfailed⟩ := hrecord
  simp [attemptRow, hlog, hmessages, hcalls, hretries, hfailed]

theorem attemptSkill_tracks {k : ℕ} (pending : p.pending = call :: rest)
    (attempts : p.attempts = some k) (calls : (p.state.skillCalls : ℤ) ≤ config.maxSkillCalls)
    (retries : (k : ℤ) ≤ config.skillMaxRetries) :
    Tracks (LoopStep config env ctx) (ShowsPoint ctx)
      (fun _ q => q.step = p.step ∧ q.pending = p.pending ∧ q.state = p.state ∧
        q.attempts = some (k + 1)) p
      (attemptSkill rt env ctx p.step p.state.skillCalls k call) := by
  intro w hw
  obtain ⟨now, -, hrecord⟩ := exec_attemptSkill rt env ctx call p.step p.state.skillCalls k w
  have hstep : LoopStep config env ctx p (p.attempt
      (attemptRow env ctx p.step p.state.skillCalls k call now)
      (env.skill p.step p.state.skillCalls k).statementFails) :=
    .attempted pending attempts calls retries
  refine ⟨_, .single hstep, ?_, fun _ _ => ⟨rfl, rfl, rfl, rfl⟩⟩
  simp only [ShowsPoint, World.loopRecord] at hw hrecord ⊢
  rw [hrecord]
  simp [LoopPoint.attempt, attemptRow, ← hw]

theorem attemptSkills_tracks {k remaining : ℕ} (pending : p.pending = call :: rest)
    (attempts : p.attempts = some k) (calls : (p.state.skillCalls : ℤ) ≤ config.maxSkillCalls)
    (retries : (k + remaining : ℤ) ≤ config.skillMaxRetries) :
    Tracks (LoopStep config env ctx) (ShowsPoint ctx) (fun _ q => Attempted p q) p
      (attemptSkills rt env ctx p.step p.state.skillCalls k call remaining) := by
  induction remaining generalizing p k with
  | zero =>
    refine (attemptSkill_tracks pending attempts calls (by omega)).mono ?_
    rintro _ q ⟨hstep, hpending, hstate, hattempts⟩
    exact ⟨hstep, hpending, hstate, k, hattempts⟩
  | succ remaining ih =>
    refine (attemptSkill_tracks pending attempts calls (by omega)).bind ?_
    rintro last q ⟨hstep, hpending, hstate, hattempts⟩
    split
    · exact tracks_pure ⟨hstep, hpending, hstate, k, hattempts⟩
    · rw [← hstep, ← hstate]
      refine (ih (hpending.trans pending) hattempts (hstate ▸ calls) (by push_cast; omega)).mono ?_
      rintro _ r ⟨hstep', hpending', hstate', hattempts'⟩
      exact ⟨hstep'.trans hstep, hpending'.trans hpending, hstate'.trans hstate, hattempts'⟩

theorem executeSkillWithRetry_tracks (pending : p.pending = call :: rest)
    (attempts : p.attempts = some 0) (calls : (p.state.skillCalls : ℤ) ≤ config.maxSkillCalls) :
    Tracks (LoopStep config env ctx) (ShowsPoint ctx) (fun _ q => Attempted p q) p
      (executeSkillWithRetry rt config env ctx p.step p.state.skillCalls call) := by
  unfold executeSkillWithRetry
  split
  · exact tracks_raise _
  · exact attemptSkills_tracks pending attempts calls (by omega)

theorem handleSkill_tracks (pending : p.pending = call :: rest) (attempts : p.attempts = none)
    (skill : call.name ≠ submitConclusionName) :
    Tracks (LoopStep config env ctx) (ShowsPoint ctx) (FlowAt rt config ctx p.step rest) p
      (handleSkill rt config env ctx p.step call p.state) := by
  refine tracks_of_exec fun w hw => ⟨p.count call, w, _, rfl,
    .single (.counted pending skill attempts), hw, ?_⟩
  unfold handleSkill
  dsimp only
  split
  · exact tracks_pure (.degraded nofun rfl)
  · rename_i hcalls
    refine (executeSkillWithRetry_tracks (p := p.count call) pending rfl (not_lt.mp hcalls)).bind ?_
    rintro result q ⟨hstep, hpending, hstate, hattempts⟩
    have hstate' : q.state = (p.count call).state := hstate
    change Tracks _ _ _ q (answerCall _ _ _ (p.count call).state >>= _)
    rw [← hstate']
    refine (answerCall_tracks _ (hpending.trans pending) (.inr hattempts)).bind ?_
    rintro st r ⟨hstep', hpending', hattempts', hst⟩
    exact tracks_pure ⟨hstep'.trans hstep, hpending', hattempts', hst⟩

theorem utcNow_tracks (shown : Time) :
    Tracks (LoopStep config env ctx) (ShowsPoint ctx) (fun _ q => q = p) p (utcNow rt shown) :=
  fun _ hw => ⟨p, .refl, hw, fun _ _ => rfl⟩

/-- A rejected submission advances the closure counter, and what follows depends on it. -/
theorem reject_tracks {f : Investigation → Investigation} {k : ℤ → Session Flow}
    (hf : ∀ i, (f i).closureRetryCount = i.closureRetryCount + 1)
    (hk : ∀ w, ShowsPoint ctx p.reject w → ∃ q w' m',
      exec (k (p.reject.record.closureRetries.getD 0)) w = exec m' w' ∧
        LoopStep config env ctx p q ∧ ShowsPoint ctx q w' ∧
        Tracks (LoopStep config env ctx) (ShowsPoint ctx) (FlowAt rt config ctx p.step rest) q m') :
    Tracks (LoopStep config env ctx) (ShowsPoint ctx) (FlowAt rt config ctx p.step rest) p (do
      updateInvestigation ctx.investigationId f
      let retries ← Session.query fun db =>
        ((db.investigations[ctx.investigationId]?).map (fun i => (i.closureRetryCount : ℤ))).getD 0
      k retries) := by
  refine tracks_of_exec fun w hw => ?_
  have hshows : ShowsPoint ctx p.reject { w with db := { w.db with
      investigations := w.db.investigations.modify ctx.investigationId f } } := by
    rw [ShowsPoint, loopRecord_updateInvestigation hf, LoopPoint.reject, ← hw]
  have hretries : ((((w.db.investigations.modify ctx.investigationId f)[ctx.investigationId]?).map
      fun i => (i.closureRetryCount : ℤ)).getD 0) = (p.reject.record.closureRetries.getD 0 : ℕ) := by
    have h := congrArg (fun r : LoopRecord => r.closureRetries.getD 0) hshows
    rw [← h]
    simp only [World.loopRecord]
    cases (w.db.investigations.modify ctx.investigationId f)[ctx.investigationId]? <;> rfl
  obtain ⟨q, w', m', hexec, hstep, hq, htracks⟩ := hk _ hshows
  refine ⟨q, w', m', ?_, .single hstep, hq, htracks⟩
  rw [updateInvestigation, exec_modify_bind, exec_query_bind, hretries]
  exact hexec

theorem handleSubmit_tracks (pending : p.pending = call :: rest) (attempts : p.attempts = none)
    (submit : call.name = submitConclusionName) :
    Tracks (LoopStep config env ctx) (ShowsPoint ctx) (FlowAt rt config ctx p.step rest) p
      (handleSubmit rt config env ctx p.step call p.state) := by
  unfold handleSubmit
  split
  · exact (answerCall_tracks _ pending (.inl ⟨attempts, submit⟩)).bind fun st q h => tracks_pure h
  · rename_i conclusion parsed
    split
    · exact tracks_raise _
    · rename_i closure evaluated
      split
      · rename_i passed
        refine Tracks.bind (updateInvestigation_tracks fun _ => rfl) ?_
        rintro ⟨⟩ q rfl
        exact tracks_pure (.accepted pending submit attempts parsed evaluated passed)
      · refine (utcNow_tracks _).bind ?_
        rintro now q rfl
        refine reject_tracks ?_ fun w hw => ?_
        · intro i
          rfl
        split
        · refine ⟨_, w, _, rfl, .rejected pending submit, hw, ?_⟩
          refine Tracks.bind (updateInvestigation_tracks fun _ => rfl) ?_
          rintro ⟨⟩ q rfl
          exact tracks_pure (.degraded nofun rfl)
        · rename_i hmax
          rw [observe, exec_setRedis_bind]
          refine ⟨_, _, _, rfl, .resumed pending submit (not_lt.mp hmax), ?_, ?_⟩
          · simp only [ShowsPoint, World.loopRecord] at hw ⊢
            simp [LoopPoint.resume, ← hw]
          · exact (answerCall_tracks (p := q.resume) _ pending
              (.inl ⟨attempts, submit⟩)).bind fun st r h => tracks_pure h

theorem handleCall_tracks (pending : p.pending = call :: rest) (attempts : p.attempts = none) :
    Tracks (LoopStep config env ctx) (ShowsPoint ctx) (FlowAt rt config ctx p.step rest) p
      (handleCall rt config env ctx p.step call p.state) := by
  unfold handleCall
  split
  · exact handleSubmit_tracks pending attempts ‹_›
  · exact handleSkill_tracks pending attempts ‹_›

theorem handleCalls_tracks {calls : List ToolCallRequest} (pending : p.pending = calls)
    (attempts : p.attempts = none) :
    Tracks (LoopStep config env ctx) (ShowsPoint ctx) (FlowAt rt config ctx p.step []) p
      (handleCalls rt config env ctx p.step calls p.state) := by
  induction calls generalizing p with
  | nil => exact tracks_pure ⟨rfl, pending, attempts, rfl⟩
  | cons call calls ih =>
    refine (handleCall_tracks pending attempts).bind fun flow q hq => ?_
    cases flow with
    | next st =>
      obtain ⟨hstep, hpending, hattempts, rfl⟩ := hq
      rw [← hstep]
      exact ih hpending hattempts
    | done result => exact tracks_pure hq

theorem remind_tracks (content : String) (pending : p.pending = []) (attempts : p.attempts = none) :
    Tracks (LoopStep config env ctx) (ShowsPoint ctx)
      (fun st q => FlowAt rt config ctx p.step [] (.next st) q) p (remind ctx content p.state) := by
  unfold remind
  split
  · exact tracks_pure ⟨rfl, pending, attempts, rfl⟩
  · refine tracks_of_exec fun w hw => ?_
    rw [saveMessage, saveMessage, exec_modify_bind, exec_modify_bind]
    have hstep : LoopStep config env ctx p ((p.append ctx.investigationId
        { role := .assistant, content := some content } content).append ctx.investigationId
        reminderMessage "Reminder: call submit_conclusion when ready.") := .reminded pending
    refine ⟨_, _, _, rfl, .single hstep, ?_, ?_⟩
    · simp only [ShowsPoint, World.loopRecord] at hw ⊢
      simp [LoopPoint.append, reminderMessage, ← hw]
    · refine tracks_pure ⟨rfl, pending, attempts, ?_⟩
      simp [LoopPoint.append, reminderMessage]

theorem agentStep_tracks (pending : p.pending = []) (attempts : p.attempts = none)
    (steps : p.step < config.maxSteps.toNat) :
    Tracks (LoopStep config env ctx) (ShowsPoint ctx) (FlowAt rt config ctx (p.step + 1) []) p
      (agentStep rt config env ctx (p.step + 1) p.state) := by
  refine Tracks.bind (updateInvestigation_tracks fun _ => rfl) ?_
  rintro ⟨⟩ p rfl
  refine tracks_of_exec fun w hw => ?_
  rw [observe, exec_setRedis_bind]
  refine ⟨_, _, _, rfl, .single (.chatted steps pending attempts), ?_, ?_⟩
  · simp only [ShowsPoint, World.loopRecord] at hw ⊢
    simp [LoopPoint.chat, ← hw]
  · generalize hq : p.chat = q
    have hstep : p.step + 1 = q.step := by rw [← hq]; rfl
    have hstate : p.state = q.state := by rw [← hq]; rfl
    have hpending : q.pending = [] := by rw [← hq]; exact pending
    have hattempts : q.attempts = none := by rw [← hq]; exact attempts
    have hasking : q.asking = true := by rw [← hq]; rfl
    rw [hstep, hstate]
    split
    · exact tracks_pure (.degraded nofun rfl)
    · rename_i response answer
      refine Tracks.bind (updateInvestigation_tracks fun _ => rfl) ?_
      rintro ⟨⟩ q rfl
      dsimp only
      split
      · exact (remind_tracks _ hpending hattempts).bind fun st r h => tracks_pure h
      · rename_i calls
        refine tracks_of_exec fun w hw => ?_
        rw [saveMessage, exec_modify_bind]
        refine ⟨_, _, _, rfl, .single (.asked hpending hattempts hasking answer calls), ?_, ?_⟩
        · simp only [ShowsPoint, World.loopRecord] at hw ⊢
          simp [LoopPoint.ask, LoopPoint.append, assistantMessage, ← hw]
        · exact handleCalls_tracks rfl hattempts

theorem agentSteps_tracks {remaining : ℕ} (pending : p.pending = []) (attempts : p.attempts = none)
    (steps : p.step + remaining = config.maxSteps.toNat) :
    Tracks (LoopStep config env ctx) (ShowsPoint ctx) (fun r q => LoopEnd rt config ctx q r) p
      (agentSteps rt config env ctx (p.step + 1) p.state remaining) := by
  induction remaining generalizing p with
  | zero =>
    refine Tracks.bind (updateInvestigation_tracks fun _ => rfl) ?_
    rintro ⟨⟩ q rfl
    exact tracks_pure (.degraded nofun rfl)
  | succ remaining ih =>
    refine (agentStep_tracks pending attempts (by omega)).bind fun flow q hq => ?_
    cases flow with
    | next st =>
      obtain ⟨hstep, hpending, hattempts, rfl⟩ := hq
      rw [← hstep]
      exact ih hpending hattempts (by omega)
    | done result => exact tracks_pure hq

/-- Wherever the loop stops, it has moved by steps of the machine; it returns at an end of it. -/
theorem agentRun_reaches (rt : Runtime) (config : InvestigationConfig) (env : AgentEnv)
    (ctx : InvestigationContext) (w : World) :
    ∃ p, LoopReaches config env ctx (w.loopRecord ctx.investigationId) p ∧
      (exec (agentRun rt config env ctx) w).2.loopRecord ctx.investigationId = p.record ∧
      ∀ result, (exec (agentRun rt config env ctx) w).1 = .ok result →
        LoopEnd rt config ctx p result := by
  have htracks : Tracks (LoopStep config env ctx) (ShowsPoint ctx)
      (fun r q => LoopEnd rt config ctx q r)
      (openingPoint env ctx (w.loopRecord ctx.investigationId))
      (agentSteps rt config env ctx 1
        (openingPoint env ctx (w.loopRecord ctx.investigationId)).state config.maxSteps.toNat) :=
    agentSteps_tracks rfl rfl (Nat.zero_add _)
  have hrun : agentRun rt config env ctx = (do
      saveMessage ctx.investigationId 0 .system (env.prompts ctx).1 none
      saveMessage ctx.investigationId 1 .user (env.prompts ctx).2 none
      agentSteps rt config env ctx 1
        (openingPoint env ctx (w.loopRecord ctx.investigationId)).state config.maxSteps.toNat) := rfl
  rw [hrun, saveMessage, saveMessage, exec_modify_bind, exec_modify_bind]
  refine htracks _ ?_
  simp [ShowsPoint, World.loopRecord, openingPoint, LoopPoint.append]

end Tracking

end Minsight

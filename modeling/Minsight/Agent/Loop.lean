import Minsight.Agent.Conclusion

/-! # The agent loop -/

namespace Minsight

structure InvestigationConfig where
  batchSize : ℤ := 5
  maxSteps : ℤ := 15
  maxSkillCalls : ℤ := 20
  dailyEventBudget : ℤ := 200
  modelName : String := "deepseek-chat"
  alertPromptLimit : ℤ := 20
  skillMaxRetries : ℤ := 2
  closureEnabled : Bool := true
  minEvidenceClosureScore : ℚ := 6 / 10
  minRefutationCoverageForAttack : ℚ := 1 / 2
  maxClosureRetries : ℤ := 2
  requireRefutationAttempt : Bool := true
  minRefutingHintsChecked : ℤ := 1
  supervisorEnabled : Bool := true
  supervisorBlockOnFail : Bool := false

def InvestigationConfig.closure (config : InvestigationConfig) : ClosureConfig where
  enabled := config.closureEnabled
  minEvidenceClosureScore := config.minEvidenceClosureScore
  minRefutationCoverageForAttack := config.minRefutationCoverageForAttack
  maxClosureRetries := config.maxClosureRetries
  requireRefutationAttempt := config.requireRefutationAttempt
  minRefutingHintsChecked := config.minRefutingHintsChecked

structure LlmResponse where
  content : Option String := none
  toolCalls : List ToolCallRequest := []
  promptTokens : ℤ := 0
  completionTokens : ℤ := 0

structure SkillResult where
  success : Bool
  summary : String
  data : Json := .obj []
  evidenceRef : String := ""
  error : Option String := none

/-- What a skill returns or raises, and the correlation it records on the current event. -/
structure SkillAnswer where
  result : Except Exn SkillResult
  correlated : Option (String × List ℕ) := none
  /-- A database statement of the skill fails. -/
  statementFails : Bool := false

/-- What an investigation is told about its event. -/
structure InvestigationContext where
  investigationId : ℕ
  eventId : ℕ
  event : Event
  alerts : List ℕ
  sop : Option (ℕ × InvestigationSop)
  modelName : String

/-- What the outside world answers while the agent loop runs. -/
structure AgentEnv where
  prompts : InvestigationContext → String × String := fun _ => ("", "")
  /-- The model's answer at a step, given the conversation. -/
  chat : ℕ → List ChatMessage → Except Exn LlmResponse
  /-- A skill's answer, by step, skill calls so far and attempt. -/
  skill : ℕ → ℕ → ℕ → SkillAnswer := fun _ _ _ => { result := .error .external }
  /-- The clock at a step. -/
  clock : ℕ → Time
  /-- `str(exc)` -/
  message : Exn → String := fun _ => ""
  /-- `json.dumps` of an assistant message. -/
  dumpMessage : ChatMessage → String := fun _ => ""

structure AgentLoopResult where
  conclusion : ConclusionPayload
  investigationStatus : InvestigationStatus
  closureResult : Option ClosureResult := none
  skillsCalled : List String := []

structure LoopState where
  messages : List ChatMessage := []
  sequence : ℕ := 0
  skillCalls : ℕ := 0
  skillsCalled : List String := []

/-- A statement block of the loop either goes on with the next one or returns. -/
inductive Flow
  | next (st : LoopState)
  | done (result : AgentLoopResult)

/-- `SUBMIT_CONCLUSION_NAME` -/
def submitConclusionName : String := "submit_conclusion"

def observe (event : AgentEvent) : Session Unit :=
  Session.setRedis fun o => { o with agentLog := o.agentLog ++ [event] }

def updateInvestigation (investigationId : ℕ) (f : Investigation → Investigation) :
    Session Unit :=
  Session.modify fun db => { db with investigations := db.investigations.modify investigationId f }

/-- `_save_message` -/
def saveMessage (investigationId sequence : ℕ) (role : MessageRole) (content : String)
    (toolCallId : Option String) : Session Unit :=
  Session.modify fun db => { db with
    messages := db.messages ++ [{ investigationId, role, content, toolCallId, sequence }] }

def answerCall (investigationId : ℕ) (call : ToolCallRequest) (content : String)
    (st : LoopState) : Session LoopState := do
  saveMessage investigationId st.sequence .tool content (some call.id)
  pure { st with
    messages := st.messages ++
      [{ role := .tool, content := some content, toolCallId := some call.id }]
    sequence := st.sequence + 1 }

/-- The priority bump that `query_history_alerts` leaves on the current event. -/
def applyCorrelation (correlationKey : String) (relatedIds : List ℕ) (event : Event) : Event :=
  { event with
    queuePriority := min (event.queuePriority + 1) 100
    correlationKey := some correlationKey
    relatedEventIds := some ((relatedIds.foldl
      (fun merged rid => if merged.contains rid then merged else merged ++ [rid])
      (event.relatedEventIds.getD [])).take 20) }

section

variable (rt : Runtime) (config : InvestigationConfig) (env : AgentEnv)
  (ctx : InvestigationContext)

/-- The write of a skill to the current event; only one skill makes one. -/
def recordCorrelation (call : ToolCallRequest) (answer : SkillAnswer) : Session Unit :=
  match answer.correlated with
  | some (key, related) =>
    if call.name = "query_history_alerts" ∧ related ≠ [] then
      Session.modify fun db => { db with
        events := db.events.modify ctx.eventId (applyCorrelation key related) }
    else pure ()
  | none => pure ()

/-- After a failed statement the transaction takes no more of them. -/
def failTransaction (answer : SkillAnswer) : Session Unit :=
  if answer.statementFails then Tx.write fun w => { w with failed := true } else pure ()

def skillResult (answer : SkillAnswer) : SkillResult :=
  match answer.result with
  | .ok r => r
  | .error e => { success := false, summary := env.message e, error := some "exception" }

/-- One attempt of `_execute_skill_with_retry`. -/
def attemptSkill (step calls attempt : ℕ) (call : ToolCallRequest) : Session SkillResult := do
  let answer := env.skill step calls attempt
  let last := skillResult env answer
  recordCorrelation ctx call answer
  failTransaction answer
  observe (.attempt calls call.name last.success answer.statementFails)
  let now ← utcNow rt (env.clock step)
  Session.modify fun db => { db with
    toolCalls := db.toolCalls ++ [{
      investigationId := ctx.investigationId
      stepNumber := step
      skillName := call.name
      skillInput := call.arguments
      skillOutput := last.data
      outputSummary := some last.summary
      success := last.success
      retryCount := attempt
      calledAt := now }] }
  pure last

/-- The attempts from `attempt` on, `remaining` of them after this one. -/
def attemptSkills (step calls attempt : ℕ) (call : ToolCallRequest) : ℕ → Session SkillResult
  | 0 => attemptSkill rt env ctx step calls attempt call
  | remaining + 1 => do
    let last ← attemptSkill rt env ctx step calls attempt call
    if last.success then pure last else attemptSkills step calls (attempt + 1) call remaining

/-- `_execute_skill_with_retry`; without any attempt its final assertion fails. -/
def executeSkillWithRetry (step calls : ℕ) (call : ToolCallRequest) : Session SkillResult :=
  if config.skillMaxRetries < 0 then Tx.raise (.runtimeError "AssertionError")
  else attemptSkills rt env ctx step calls 0 call config.skillMaxRetries.toNat

/-- The branch of the loop that handles `submit_conclusion`. -/
def handleSubmit (step : ℕ) (call : ToolCallRequest) (st : LoopState) : Session Flow := do
  match parseConclusion rt call.arguments with
  | none =>
    let st ← answerCall ctx.investigationId call
      ("submit_conclusion validation failed: " ++ env.message (.valueError "ValidationError")) st
    pure (.next st)
  | some conclusion =>
    match evaluateClosure conclusion st.skillsCalled
        (ctx.sop.bind fun s => s.2.hypothesisTemplate) config.closure with
    | .error e => Tx.raise e
    | .ok closure =>
      if closure.passed then
        updateInvestigation ctx.investigationId fun i => { i with skillCallCount := st.skillCalls }
        pure (.done {
          conclusion := conclusion
          investigationStatus := .completed
          closureResult := some closure
          skillsCalled := st.skillsCalled })
      else
        let now ← utcNow rt (env.clock step)
        updateInvestigation ctx.investigationId fun i => { i with
          closureRetryCount := i.closureRetryCount + 1
          closureRequestedAt := match i.closureRequestedAt with | some t => some t | none => some now }
        let retries ← Session.query fun db =>
          ((db.investigations[ctx.investigationId]?).map (·.closureRetryCount)).getD 0
        if config.maxClosureRetries < retries then
          updateInvestigation ctx.investigationId fun i => { i with
            skillCallCount := st.skillCalls }
          pure (.done {
            conclusion := degradedConclusion "证据闭合度不足且已达最大补查次数，转人工复核。"
            investigationStatus := .needsHuman
            closureResult := some closure
            skillsCalled := st.skillsCalled })
        else
          observe .resumed
          let st ← answerCall ctx.investigationId call closure.rejectionMessage st
          pure (.next st)

def handleSkill (step : ℕ) (call : ToolCallRequest) (st : LoopState) : Session Flow := do
  let st := { st with
    skillCalls := st.skillCalls + 1
    skillsCalled := if st.skillsCalled.contains call.name then st.skillsCalled
      else st.skillsCalled ++ [call.name] }
  if config.maxSkillCalls < st.skillCalls then
    pure (.done {
      conclusion := degradedConclusion "max_skill_calls exceeded"
      investigationStatus := .needsHuman })
  else
    let result ← executeSkillWithRetry rt config env ctx step st.skillCalls call
    let content := if result.success then result.summary
      else "Skill error: " ++ orText result.error result.summary
    let st ← answerCall ctx.investigationId call content st
    pure (.next st)

def handleCall (step : ℕ) (call : ToolCallRequest) (st : LoopState) : Session Flow :=
  if call.name = submitConclusionName then handleSubmit rt config env ctx step call st
  else handleSkill rt config env ctx step call st

def handleCalls (step : ℕ) : List ToolCallRequest → LoopState → Session Flow
  | [], st => pure (.next st)
  | call :: calls, st => do
    match ← handleCall rt config env ctx step call st with
    | .next st => handleCalls step calls st
    | .done result => pure (.done result)

/-- An answer without tool calls is stored and the model is reminded. -/
def remind (content : String) (st : LoopState) : Session LoopState := do
  if content = "" then pure st
  else
    saveMessage ctx.investigationId st.sequence .assistant content none
    saveMessage ctx.investigationId (st.sequence + 1) .user
      "Reminder: call submit_conclusion when ready." none
    pure { st with
      messages := st.messages ++ [{ role := .assistant, content := some content },
        { role := .user
          content := some "请调用 Skill 收集证据，完成后必须调用 submit_conclusion 提交结论。" }]
      sequence := st.sequence + 2 }

def agentStep (step : ℕ) (st : LoopState) : Session Flow := do
  updateInvestigation ctx.investigationId fun i => { i with currentStep := step }
  observe (.chat step st.messages)
  match env.chat step st.messages with
  | .error e =>
    pure (.done {
      conclusion := degradedConclusion ("LLM error: " ++ env.message e)
      investigationStatus := .degraded })
  | .ok response =>
    updateInvestigation ctx.investigationId fun i => { i with
      tokenInput := i.tokenInput + response.promptTokens
      tokenOutput := i.tokenOutput + response.completionTokens }
    let content := response.content.getD ""
    if response.toolCalls = [] then
      let st ← remind ctx content st
      pure (.next st)
    else
      let message : ChatMessage := {
        role := .assistant
        content := if content = "" then none else some content
        toolCalls := response.toolCalls }
      saveMessage ctx.investigationId st.sequence .assistant (env.dumpMessage message) none
      handleCalls rt config env ctx step response.toolCalls { st with
        messages := st.messages ++ [message]
        sequence := st.sequence + 1 }

/-- The steps from `step` on, at most `remaining` of them. -/
def agentSteps (step : ℕ) (st : LoopState) : ℕ → Session AgentLoopResult
  | 0 => do
    updateInvestigation ctx.investigationId fun i => { i with skillCallCount := st.skillCalls }
    pure {
      conclusion := degradedConclusion "max_steps exceeded without submit_conclusion"
      investigationStatus := .needsHuman }
  | remaining + 1 => do
    match ← agentStep rt config env ctx step st with
    | .next st => agentSteps (step + 1) st remaining
    | .done result => pure result

/-- `AgentLoop.run` -/
def agentRun : Session AgentLoopResult := do
  let (system, user) := env.prompts ctx
  saveMessage ctx.investigationId 0 .system system none
  saveMessage ctx.investigationId 1 .user user none
  agentSteps rt config env ctx 1 {
    messages := [{ role := .system, content := some system },
      { role := .user, content := some user }]
    sequence := 2 } config.maxSteps.toNat

end

end Minsight

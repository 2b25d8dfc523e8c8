import Minsight.Agent.Orchestrator
import Minsight.Model.Footprint

/-! # What the agent loop does

The loop writes messages, tool calls, bookkeeping columns of its own investigation and the
correlation columns of its own event. It completes an investigation only with a submitted
conclusion and otherwise asks for a human.
-/

namespace Minsight

open Tx Session

/-- The columns of an investigation that decide what happens to its event. -/
structure InvestigationCore where
  eventId : ℕ
  status : InvestigationStatus
  startedAt : Time
  finishedAt : Option Time
  deriving DecidableEq

def Investigation.core (i : Investigation) : InvestigationCore where
  eventId := i.eventId
  status := i.status
  startedAt := i.startedAt
  finishedAt := i.finishedAt

/-- A relation between worlds that allows every write of the agent loop. -/
structure AllowsAgent (rt : Runtime) (r : World → World → Prop) (investigationId eventId : ℕ) :
    Prop where
  clock : AllowsClock rt r
  investigation : ∀ f, (∀ i : Investigation, (f i).core = i.core) →
    Respects r (Session.modify fun db => { db with
      investigations := db.investigations.modify investigationId f })
  message : ∀ m, Respects r (Session.modify fun db => { db with messages := db.messages ++ [m] })
  toolCall : ∀ c, Respects r (Session.modify fun db => { db with toolCalls := db.toolCalls ++ [c] })
  correlate : ∀ key related, Respects r (Session.modify fun db => { db with
    events := db.events.modify eventId (applyCorrelation key related) })
  observe : ∀ e, Respects r (observe e)
  fail : ∀ answer, Respects r (failTransaction answer)

theorem failTransaction_respects {r : World → World → Prop} [Std.Refl r]
    (h : ∀ w : World, r w { w with failed := true }) (answer : SkillAnswer) :
    Respects r (failTransaction answer) := by
  unfold failTransaction
  split
  · exact respects_write h
  · exact respects_pure _

section Writes

variable {r : World → World → Prop} [Std.Refl r] [IsTrans World r] {rt : Runtime}
  {config : InvestigationConfig} {env : AgentEnv} {ctx : InvestigationContext} {st : LoopState}
  {step calls attempt : ℕ} {call : ToolCallRequest}
  (h : AllowsAgent rt r ctx.investigationId ctx.eventId)

include h

omit [Std.Refl r] [IsTrans World r] in
theorem updateInvestigation_respects {f : Investigation → Investigation}
    (hf : ∀ i, (f i).core = i.core) : Respects r (updateInvestigation ctx.investigationId f) :=
  h.investigation f hf

omit [Std.Refl r] [IsTrans World r] in
theorem saveMessage_respects (sequence : ℕ) (role : MessageRole) (content : String)
    (toolCallId : Option String) :
    Respects r (saveMessage ctx.investigationId sequence role content toolCallId) :=
  h.message _

theorem answerCall_respects (content : String) :
    Respects r (answerCall ctx.investigationId call content st) :=
  (saveMessage_respects h _ _ _ _).bind fun _ => respects_pure _

theorem attemptSkill_respects :
    Respects r (attemptSkill rt env ctx step calls attempt call) := by
  refine Respects.bind ?_ fun _ => (h.fail _).bind fun _ => (h.observe _).bind fun _ =>
    (h.clock.utcNow _).bind fun now => (h.toolCall _).bind fun _ => respects_pure _
  unfold recordCorrelation
  split
  · split
    · exact h.correlate _ _
    · exact respects_pure _
  · exact respects_pure _

theorem attemptSkills_respects (remaining : ℕ) :
    Respects r (attemptSkills rt env ctx step calls attempt call remaining) := by
  induction remaining generalizing attempt with
  | zero => exact attemptSkill_respects h
  | succ remaining ih =>
    refine (attemptSkill_respects h).bind fun last => ?_
    split
    · exact respects_pure _
    · exact ih

theorem executeSkillWithRetry_respects :
    Respects r (executeSkillWithRetry rt config env ctx step calls call) := by
  unfold executeSkillWithRetry
  split
  · exact respects_raise _
  · exact attemptSkills_respects h _

theorem handleSubmit_respects :
    Respects r (handleSubmit rt config env ctx step call st) := by
  unfold handleSubmit
  split
  · exact (answerCall_respects h _).bind fun _ => respects_pure _
  · split
    · exact respects_raise _
    · split
      · exact Respects.bind (updateInvestigation_respects h fun _ => rfl) fun _ => respects_pure _
      · refine (h.clock.utcNow _).bind fun now =>
          Respects.bind (updateInvestigation_respects h fun _ => rfl) fun _ =>
          (respects_query _).bind fun retries => ?_
        split
        · exact Respects.bind (updateInvestigation_respects h fun _ => rfl) fun _ =>
            respects_pure _
        · exact (h.observe _).bind fun _ => (answerCall_respects h _).bind fun _ => respects_pure _

theorem handleSkill_respects :
    Respects r (handleSkill rt config env ctx step call st) := by
  unfold handleSkill
  dsimp only
  split
  · exact respects_pure _
  · exact (executeSkillWithRetry_respects h).bind fun _ =>
      (answerCall_respects h _).bind fun _ => respects_pure _

theorem handleCall_respects :
    Respects r (handleCall rt config env ctx step call st) := by
  unfold handleCall
  split
  · exact handleSubmit_respects h
  · exact handleSkill_respects h

theorem handleCalls_respects (l : List ToolCallRequest) :
    Respects r (handleCalls rt config env ctx step l st) := by
  induction l generalizing st with
  | nil => exact respects_pure _
  | cons call l ih =>
    refine (handleCall_respects h).bind fun flow => ?_
    cases flow with
    | next st => exact ih
    | done result => exact respects_pure _

theorem remind_respects (content : String) : Respects r (remind ctx content st) := by
  unfold remind
  split
  · exact respects_pure _
  · exact (saveMessage_respects h _ _ _ _).bind fun _ =>
      (saveMessage_respects h _ _ _ _).bind fun _ => respects_pure _

theorem agentStep_respects : Respects r (agentStep rt config env ctx step st) := by
  refine Respects.bind (updateInvestigation_respects h fun _ => rfl) fun _ =>
    (h.observe _).bind fun _ => ?_
  split
  · exact respects_pure _
  · refine Respects.bind (updateInvestigation_respects h fun _ => rfl) fun _ => ?_
    dsimp only
    split
    · exact (remind_respects h _).bind fun _ => respects_pure _
    · exact (saveMessage_respects h _ _ _ _).bind fun _ => handleCalls_respects h _

theorem agentSteps_respects (remaining : ℕ) :
    Respects r (agentSteps rt config env ctx step st remaining) := by
  induction remaining generalizing step st with
  | zero =>
    exact Respects.bind (updateInvestigation_respects h fun _ => rfl) fun _ => respects_pure _
  | succ remaining ih =>
    refine (agentStep_respects h).bind fun flow => ?_
    cases flow with
    | next st => exact ih
    | done result => exact respects_pure _

theorem agentRun_respects : Respects r (agentRun rt config env ctx) :=
  (saveMessage_respects h _ _ _ _).bind fun _ => (saveMessage_respects h _ _ _ _).bind fun _ =>
    agentSteps_respects h _

end Writes

/-- The investigation completed, or its conclusion asks for a human. -/
def CompletedOrHuman (result : AgentLoopResult) : Prop :=
  result.investigationStatus = .completed ∨ result.conclusion.verdict = .needsHumanReview

def Flow.EndsWell : Flow → Prop
  | .next _ => True
  | .done result => CompletedOrHuman result

section Ends

variable {rt : Runtime} {config : InvestigationConfig} {env : AgentEnv}
  {ctx : InvestigationContext} {st : LoopState} {step : ℕ} {call : ToolCallRequest}

theorem handleSubmit_endsWell :
    Returns Flow.EndsWell (handleSubmit rt config env ctx step call st) := by
  unfold handleSubmit
  split
  · exact returns_bind fun _ => returns_pure trivial
  · split
    · exact returns_raise _
    · split
      · exact returns_bind fun _ => returns_pure (.inl rfl)
      · refine returns_bind fun _ => returns_bind fun _ => returns_bind fun retries => ?_
        split
        · exact returns_bind fun _ => returns_pure (.inr rfl)
        · exact returns_bind fun _ => returns_bind fun _ => returns_pure trivial

theorem handleSkill_endsWell :
    Returns Flow.EndsWell (handleSkill rt config env ctx step call st) := by
  unfold handleSkill
  dsimp only
  split
  · exact returns_pure (.inr rfl)
  · exact returns_bind fun _ => returns_bind fun _ => returns_pure trivial

theorem handleCall_endsWell :
    Returns Flow.EndsWell (handleCall rt config env ctx step call st) := by
  unfold handleCall
  split
  · exact handleSubmit_endsWell
  · exact handleSkill_endsWell

theorem handleCalls_endsWell (l : List ToolCallRequest) :
    Returns Flow.EndsWell (handleCalls rt config env ctx step l st) := by
  induction l generalizing st with
  | nil => exact returns_pure trivial
  | cons call l ih =>
    refine handleCall_endsWell.bind fun flow hflow => ?_
    cases flow with
    | next st => exact ih
    | done result => exact returns_pure hflow

theorem agentStep_endsWell : Returns Flow.EndsWell (agentStep rt config env ctx step st) := by
  refine returns_bind fun _ => returns_bind fun _ => ?_
  split
  · exact returns_pure (.inr rfl)
  · refine returns_bind fun _ => ?_
    dsimp only
    split
    · exact returns_bind fun _ => returns_pure trivial
    · exact returns_bind fun _ => handleCalls_endsWell _

theorem agentSteps_returns (remaining : ℕ) :
    Returns CompletedOrHuman (agentSteps rt config env ctx step st remaining) := by
  induction remaining generalizing step st with
  | zero => exact returns_bind fun _ => returns_pure (.inr rfl)
  | succ remaining ih =>
    refine agentStep_endsWell.bind fun flow hflow => ?_
    cases flow with
    | next st => exact ih
    | done result => exact returns_pure hflow

theorem agentRun_returns : Returns CompletedOrHuman (agentRun rt config env ctx) :=
  returns_bind fun _ => returns_bind fun _ => agentSteps_returns _

end Ends

theorem supervised_completedOrHuman {rt : Runtime} {config : InvestigationConfig}
    {toolCalls : List InvestigationToolCall} {skills : List String} {result : AgentLoopResult}
    (h : CompletedOrHuman result) : CompletedOrHuman (supervised rt config toolCalls skills result) := by
  unfold supervised
  dsimp only
  split
  · split
    · exact .inr rfl
    · exact h
  · exact h

theorem finalStatus_of_concluded {result : AgentLoopResult} (h : CompletedOrHuman result)
    (hc : verdictEventStatus result.conclusion.verdict ≠ .humanPending) :
    finalStatus result = .completed := by
  rcases h with h | h
  · simp [finalStatus, hc, h]
  · simp [h, verdictEventStatus] at hc

end Minsight

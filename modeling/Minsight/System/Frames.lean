import Minsight.Agent.Effects
import Minsight.Assets.Settlement
import Minsight.System.Step
import Minsight.Triage.Lifecycle

/-! # What the services behind aggregation leave alone

Investigation, review and settlement write neither the alerts nor the rows that aggregation
and triage refer to them with.
-/

namespace Minsight

open Tx Session

section

variable {rt : Runtime}

theorem runForSource_respects {r : World → World → Prop} [Std.Refl r] [IsTrans World r]
    {env : IngestRunEnv} {source maxBatches : ℕ} {useLock : Bool}
    (h : ∀ batch, Respects r (runBatch rt source batch)) :
    Respects r (runForSource rt env source maxBatches useLock) := by
  have batches (result : IngestRunResult) (envs : List IngestBatchEnv) :
      Respects r (runBatches rt source result envs) := by
    induction envs generalizing result with
    | nil => exact respects_pure _
    | cons env envs ih =>
      refine (h env).bind fun batch => ?_
      dsimp only
      split
      · exact ih _
      · exact respects_pure _
  refine (respects_query _).bind fun sources => ?_
  split
  · exact respects_raise _
  · split
    · exact respects_pure _
    · split
      · exact respects_pure _
      · exact (respects_fallible _).bind fun _ => batches _ _

theorem logAgentStart_respects {r : Db → Db → Prop} [Std.Refl r] [IsTrans Db r] {shown : Time}
    {eventId : ℕ} : Respects (OnDb r) (logAgentStart rt shown eventId) :=
  (respects_utcNow _ _).bind fun _ => (respects_query _).bind fun _ =>
    (respects_redis _).bind fun _ => (respects_redis _).bind fun _ =>
    (respects_setRedis _).bind fun _ => respects_pure _

theorem allowsAgent_intake (investigationId eventId : ℕ) :
    AllowsAgent rt (Keeps Db.intake) investigationId eventId where
  clock := allowsClock_onDb
  investigation _ _ := keeps_modify fun _ => rfl
  message _ := keeps_modify fun _ => rfl
  toolCall _ := keeps_modify fun _ => rfl
  correlate _ _ := keeps_modify fun _ => rfl
  observe _ := respects_setRedis _
  fail := failTransaction_respects fun _ => rfl

theorem startInvestigation_intake {config : InvestigationConfig} {env : InvestigationEnv}
    {eventId : ℕ} : Respects (Keeps Db.intake) (startInvestigation rt config env eventId) :=
  (respects_utcNow _ _).bind fun _ => (respects_query _).bind fun _ =>
    Respects.bind (keeps_modify fun _ => rfl) fun _ => (respects_fallible _).bind fun _ =>
    Respects.bind (keeps_modify fun _ => rfl) fun _ => (respects_fallible _).bind fun _ =>
    (respects_fallible _).bind fun _ => respects_pure _

theorem investigateEvent_intake {config : InvestigationConfig} {env : InvestigationEnv}
    {tie : ℕ → ℕ} {eventId : ℕ} :
    Respects (Keeps Db.intake) (investigateEvent rt config env tie eventId) := by
  refine startInvestigation_intake.bind fun _ => (respects_query _).bind fun db => ?_
  split
  · exact respects_raise _
  · exact Respects.bind (keeps_modify fun _ => rfl) fun _ => logAgentStart_respects.bind fun _ =>
      (agentRun_respects (allowsAgent_intake _ _)).bind fun _ => (respects_statement _).bind fun _ =>
      (respects_query _).bind fun _ => (respects_utcNow _ _).bind fun _ =>
      (respects_fallible _).bind fun _ => Respects.bind (keeps_modify fun _ => rfl) fun _ =>
      respects_pure _

section

variable {r : Db → Db → Prop} [Std.Refl r] [IsTrans Db r]

theorem consumeSkipBudget_respects {shown : Time} {faults : InvestigationPoint → Option Exn}
    {eventId : ℕ} : Respects (OnDb r) (consumeSkipBudget rt shown faults eventId) := by
  refine (respects_utcNow _ _).bind fun _ => (respects_fallible _).bind fun _ =>
    (respects_redis _).bind fun marked => ?_
  split
  · exact (respects_fallible _).bind fun _ => (respects_setRedis _).bind fun _ => respects_pure _
  · exact respects_pure _

theorem incrementDailyCount_respects {shown : Time} {faults : InvestigationPoint → Option Exn}
    {start : ℕ} : Respects (OnDb r) (incrementDailyCount rt shown faults start) := by
  refine (respects_utcNow _ _).bind fun _ => (respects_fallible _).bind fun _ =>
    (respects_redis _).bind fun count => (respects_setRedis _).bind fun _ => ?_
  split
  · exact respects_fallible _
  · exact respects_pure _

theorem investigateAndCount_respects {config : InvestigationConfig} {env : InvestigationEnv}
    {tie : ℕ → ℕ} {eventId : ℕ}
    (h : Respects (OnDb r) (investigateEvent rt config env tie eventId)) :
    Respects (OnDb r) (investigateAndCount rt config env tie eventId) := by
  refine h.bind fun start => (respects_fallible _).bind fun _ => (respects_query _).bind fun _ => ?_
  split
  · refine consumeSkipBudget_respects.bind fun _ => ?_
    split
    · exact incrementDailyCount_respects.bind fun _ => respects_fallible _
    · exact respects_fallible _
  · exact respects_fallible _

/-- A run relates the databases before and after as each of its investigations does. -/
theorem investigationRun_respects {config : InvestigationConfig} {env : InvestigationRunEnv}
    {limit : Option ℤ} {useLock : Bool}
    (h : ∀ e, Respects (OnDb r) (investigateEvent rt config (env.items e) env.tie e)) :
    Respects (OnDb r) (investigationRun rt config env limit useLock) := by
  unfold investigationRun
  split
  · exact respects_pure _
  · refine Respects.bind ?_ fun remaining => ?_
    · exact (respects_utcNow _ _).bind fun _ => (respects_redis _).bind fun _ => respects_pure _
    · split
      · exact respects_pure _
      · exact (respects_sqlLimit _).bind fun _ => (respects_fallible _).bind fun _ =>
          (respects_query _).bind fun _ => Loop.respects_run
            (fun e w _ w' hb => (investigateAndCount_respects (h e)).of_exec hb)
            fun _ w _ _ _ => Std.Refl.refl (r := r) w.db

end

theorem allowsAgent_clockPasses (investigationId eventId : ℕ) :
    AllowsAgent rt (ClockPasses rt) investigationId eventId where
  clock := allowsClock_clockPasses
  investigation _ _ := respectsOut_modify _
  message _ := respectsOut_modify _
  toolCall _ := respectsOut_modify _
  correlate _ _ := respectsOut_modify _
  observe _ := clockPasses_setRedis fun _ => rfl
  fail := failTransaction_respects fun w => Std.Refl.refl (r := ClockPasses rt) w

theorem utcNow_passes (shown : Time) : Respects (ClockPasses rt) (utcNow rt shown) :=
  allowsClock_clockPasses.utcNow shown

theorem logAgentStart_passes {shown : Time} {eventId : ℕ} :
    Respects (ClockPasses rt) (logAgentStart rt shown eventId) :=
  (utcNow_passes _).bind fun _ => (respects_query _).bind fun _ => (respects_redis _).bind fun _ =>
    (respects_redis _).bind fun _ => Respects.bind (clockPasses_setRedis fun _ => rfl) fun _ =>
    respects_pure _

theorem startInvestigation_passes {config : InvestigationConfig} {env : InvestigationEnv}
    {eventId : ℕ} : Respects (ClockPasses rt) (startInvestigation rt config env eventId) :=
  (utcNow_passes _).bind fun _ => (respects_query _).bind fun _ =>
    (respectsOut_modify _).bind fun _ => (respects_fallible _).bind fun _ =>
    (respectsOut_modify _).bind fun _ => (respects_fallible _).bind fun _ =>
    (respects_fallible _).bind fun _ => respects_pure _

theorem investigateEvent_passes {config : InvestigationConfig} {env : InvestigationEnv}
    {tie : ℕ → ℕ} {eventId : ℕ} :
    Respects (ClockPasses rt) (investigateEvent rt config env tie eventId) := by
  refine startInvestigation_passes.bind fun _ => (respects_query _).bind fun db => ?_
  split
  · exact respects_raise _
  · exact (respectsOut_modify _).bind fun _ => logAgentStart_passes.bind fun _ =>
      (agentRun_respects (allowsAgent_clockPasses _ _)).bind fun _ =>
      (respects_statement _).bind fun _ => (respects_query _).bind fun _ =>
      (utcNow_passes _).bind fun _ => (respects_fallible _).bind fun _ =>
      (respectsOut_modify _).bind fun _ => respects_pure _

theorem consumeSkipBudget_passes {shown : Time} {faults : InvestigationPoint → Option Exn}
    {eventId : ℕ} : Respects (ClockPasses rt) (consumeSkipBudget rt shown faults eventId) := by
  refine (utcNow_passes _).bind fun _ => (respects_fallible _).bind fun _ =>
    (respects_redis _).bind fun marked => ?_
  split
  · exact (respects_fallible _).bind fun _ =>
      Respects.bind (clockPasses_setRedis fun _ => rfl) fun _ => respects_pure _
  · exact respects_pure _

theorem incrementDailyCount_passes {shown : Time} {faults : InvestigationPoint → Option Exn}
    {start : ℕ} : Respects (ClockPasses rt) (incrementDailyCount rt shown faults start) := by
  refine (utcNow_passes _).bind fun _ => (respects_fallible _).bind fun _ =>
    (respects_redis _).bind fun count =>
    Respects.bind (clockPasses_setRedis fun _ => rfl) fun _ => ?_
  split
  · exact respects_fallible _
  · exact respects_pure _

theorem investigateAndCount_passes {config : InvestigationConfig} {env : InvestigationEnv}
    {tie : ℕ → ℕ} {eventId : ℕ} :
    Respects (ClockPasses rt) (investigateAndCount rt config env tie eventId) := by
  refine investigateEvent_passes.bind fun start => (respects_fallible _).bind fun _ =>
    (respects_query _).bind fun probe => ?_
  split
  · refine consumeSkipBudget_passes.bind fun skipped => ?_
    split
    · exact incrementDailyCount_passes.bind fun _ => respects_fallible _
    · exact respects_fallible _
  · exact respects_fallible _

theorem dispatchAll_respects {r : World → World → Prop} [Std.Refl r] [IsTrans World r]
    {config : HumanReviewConfig} {items : ℕ → DispatchEnv} {result : HumanReviewRunResult}
    {cs : List DispatchCandidate}
    (h : ∀ c, Respects r (dispatchOne rt config (items c.eventId) c)) :
    Respects r (dispatchAll rt config items result cs) := by
  induction cs generalizing result with
  | nil => exact respects_pure _
  | cons c cs ih =>
    refine (h c).attempt.bind fun outcome => ?_
    cases outcome with
    | ok _ => exact ih
    | error _ => exact ih

theorem dispatchOne_leaves {config : HumanReviewConfig} {env : DispatchEnv}
    {c : DispatchCandidate} : Respects (Leaves rt Db.intake) (dispatchOne rt config env c) := by
  unfold dispatchOne
  dsimp only
  split
  · exact respects_raise _
  · exact (leaves_utcNow _).bind fun _ => leaves_modify fun _ => rfl

theorem humanReviewRun_leaves {config : HumanReviewConfig} {env : HumanReviewRunEnv}
    {limit : Option ℤ} {useLock : Bool} :
    Respects (Leaves rt Db.intake) (humanReviewRun rt config env limit useLock) := by
  refine leaves_transaction ?_
  split
  · exact respects_pure _
  · split
    · exact respects_pure _
    · exact (leaves_utcNow _).bind fun _ => (respects_query _).bind fun _ =>
        Respects.bind (leaves_modify fun _ => rfl) fun _ => (respects_query _).bind fun _ =>
        Respects.bind (leaves_modify fun _ => rfl) fun _ => (respects_query _).bind fun _ =>
        (respects_sqlLimit _).bind fun _ => (respects_fallible _).bind fun _ =>
        (respects_query _).bind fun _ => (respects_fallible _).bind fun _ =>
        (dispatchAll_respects fun _ => dispatchOne_leaves).bind fun _ =>
        (respects_fallible _).bind fun _ => respects_pure _

theorem handleReply_leaves {config : HumanReviewConfig} {env : ReplyEnv} {rawContent : String}
    {externalMsgId responder : Option String} {requestId : Option ℕ} :
    Respects (Leaves rt Db.intake)
      (handleReply rt config env rawContent externalMsgId responder requestId) := by
  refine leaves_transaction ((respects_fallible _).bind fun _ =>
    (respects_query _).bind fun db => ?_)
  split
  · exact respects_pure _
  · refine (respects_fallible _).bind fun _ => ?_
    split
    · exact respects_raise _
    · exact respects_pure _
    · refine (leaves_utcNow _).bind fun _ => ?_
      dsimp only
      split
      · exact (respects_fallible _).bind fun _ => (leaves_utcNow _).bind fun _ =>
          Respects.bind (leaves_setRedis fun _ => ⟨rfl, rfl, rfl⟩) fun _ => Respects.bind (leaves_modify fun _ => rfl)
          fun _ => (respects_fallible _).bind fun _ => respects_pure _
      · exact Respects.bind (leaves_modify fun _ => rfl) fun _ =>
          (respects_fallible _).bind fun _ => respects_pure _

theorem cancelRequest_leaves {commitFault : Option Exn} {requestId : ℕ} :
    Respects (Leaves rt Db.intake) (cancelRequest commitFault requestId) := by
  refine leaves_transaction ((respects_query _).bind fun db => ?_)
  split
  · split
    · exact Respects.bind (leaves_modify fun _ => rfl) fun _ =>
        (respects_fallible _).bind fun _ => respects_pure _
    · exact respects_pure _
  · exact respects_pure _

section

variable {r : World → World → Prop} [Std.Refl r] [IsTrans World r]

theorem settleStep_respects {fault : Option SettleFault}
    (h : ∀ w : World, r w { w with failed := true }) : Respects r (settleStep fault) := by
  refine Respects.bind (respects_read _) fun failed => ?_
  split
  · exact respects_raise _
  · split
    · exact respects_pure _
    · exact respects_raise _
    · exact Respects.bind (respects_write h) fun _ => respects_raise _

theorem commitRun_respects {fault : Option Exn} : Respects r (commitRun fault) := by
  refine Respects.bind (respects_read _) fun failed => ?_
  split
  · exact respects_raise _
  · exact respects_fallible _

end

variable {config : DefenseAssetConfig}

theorem settleStep_leaves {fault : Option SettleFault} :
    Respects (Leaves rt Db.intake) (settleStep fault) :=
  settleStep_respects fun _ => ⟨rfl, rfl, rfl, .refl _ _⟩

theorem collectTargets_leaves {tie : ℕ → ℕ} {limit : ℕ} {targets : List SettleTarget}
    {events : List (ℕ × Event)} :
    Respects (Leaves rt Db.intake) (collectTargets config tie limit targets events) :=
  collectTargets_respects fun _ => leaves_modify fun _ => rfl

theorem addWhitelistCandidate_leaves {env : SettleEnv} {t : SettleTarget} :
    Respects (Leaves rt Db.intake) (addWhitelistCandidate rt config env t) := by
  unfold addWhitelistCandidate
  split
  · exact respects_pure _
  · refine settleStep_leaves.bind fun _ => (respects_query _).bind fun _ => ?_
    split
    · exact leaves_modify fun _ => rfl
    · exact respects_pure _
    · exact respects_raise _

theorem addProfileSuggestion_leaves {env : SettleEnv} {t : SettleTarget} :
    Respects (Leaves rt Db.intake) (addProfileSuggestion rt env t) := by
  unfold addProfileSuggestion
  split
  · exact respects_pure _
  · refine settleStep_leaves.bind fun _ => leaves_modify fun db => ?_
    split <;> rfl

theorem closeSettled_leaves {env : SettleEnv} {t : SettleTarget} :
    Respects (Leaves rt Db.intake) (closeSettled config env t) := by
  have close : Respects (Leaves rt Db.intake) (closeEvent t.eventId) := leaves_modify fun _ => rfl
  unfold closeSettled
  split
  · split
    · refine settleStep_leaves.bind fun _ => (respects_query _).bind fun _ => ?_
      split
      · exact close
      · exact respects_pure _
    · exact close
  · exact respects_pure _

theorem settleOne_leaves {env : SettleEnv} {tie : ℕ → ℕ} {t : SettleTarget} :
    Respects (Leaves rt Db.intake) (settleOne rt config env tie t) :=
  settleStep_leaves.bind fun _ => (respects_query _).bind fun _ =>
    Respects.bind (leaves_modify fun _ => rfl) fun _ =>
    addWhitelistCandidate_leaves.bind fun _ => addProfileSuggestion_leaves.bind fun _ =>
    Respects.bind (leaves_modify fun _ => rfl) fun _ => closeSettled_leaves

theorem settleAll_respects {r : World → World → Prop} [Std.Refl r] [IsTrans World r]
    {env : AssetPipelineEnv} {result : AssetPipelineResult} {ts : List SettleTarget}
    (h : ∀ t, Respects r (settleOne rt config (env.items t.eventId) env.tie t)) :
    Respects r (settleAll rt config env result ts) := by
  induction ts generalizing result with
  | nil => exact respects_pure _
  | cons t ts ih =>
    refine (h t).attempt.bind fun outcome => ?_
    cases outcome with
    | ok _ => exact ih
    | error _ => exact ih

theorem assetPipelineRun_leaves {env : AssetPipelineEnv} {limit : Option ℤ} {useLock : Bool} :
    Respects (Leaves rt Db.intake) (assetPipelineRun rt config env limit useLock) := by
  refine leaves_transaction ?_
  split
  · exact respects_pure _
  · split
    · exact respects_pure _
    · exact (respects_fallible _).bind fun _ =>
        ((respects_sqlLimit _).bind fun _ => (respects_query _).bind fun _ =>
          collectTargets_leaves).bind fun _ =>
        (settleAll_respects fun _ => settleOne_leaves).bind fun _ =>
        commitRun_respects.bind fun _ => respects_pure _

theorem decideDisposition_leaves {now : Time} {commitFault : Option Exn} {recordId : ℕ}
    {decision : Time → DispositionRecord → DispositionRecord} :
    Respects (Leaves rt Db.intake) (decideDisposition rt now commitFault recordId decision) := by
  refine leaves_transaction ((respects_query _).bind fun db => ?_)
  split
  · split
    · exact (leaves_utcNow _).bind fun _ => Respects.bind (leaves_modify fun _ => rfl) fun _ =>
        (respects_fallible _).bind fun _ => respects_pure _
    · exact respects_pure _
  · exact respects_pure _

end

end Minsight

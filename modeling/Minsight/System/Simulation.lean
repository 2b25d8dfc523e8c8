import Minsight.Lifecycle.ReviewSteps
import Minsight.Lifecycle.SettlementSteps

/-! # The system moves the docket

Every call moves the docket by the kinds of steps its label names, so what those steps keep
holds in every state the system reaches.
-/

namespace Minsight

open Tx Session Docket

variable {rt : Runtime}

theorem injectProbe_leaves {env : HealthCheckEnv} {scenario : HealthCheckScenario} :
    Respects (Leaves rt Db.files) (injectProbe rt env scenario) := by
  refine leaves_transaction ((respects_query _).bind fun sources => ?_)
  split
  · exact respects_raise _
  · split
    · exact respects_raise _
    · refine (leaves_utcNow _).bind fun now => (respects_query _).bind fun alerts => ?_
      split
      · exact respects_raise _
      · exact Respects.bind (leaves_modify fun _ => rfl) fun _ =>
          (respects_fallible _).bind fun _ => respects_pure _

theorem simulates_transaction_ok {α : Type} {A : Act → Prop} {m : Session α}
    (ok : ∀ w a w', exec m w = (.ok a, w') → Simulates rt A w w')
    (passes : Respects (ClockPasses rt) m) : Respects (Simulates rt A) (transaction m) := by
  refine respects_atomically ok fun w e w' h => ?_
  have hw : ClockPasses rt w w' := passes.of_exec h
  exact Steps.tick hw

theorem investigateProbe_simulates {config : HealthCheckConfig} {env : HealthCheckEnv}
    {alertId : ℕ} :
    Respects (Simulates rt (· = .investigated)) (investigateProbe rt config env alertId) := by
  refine (respects_query _).bind fun links => ?_
  split
  · exact respects_pure _
  · refine simulates_transaction_ok (fun w a w' h => ?_)
      (investigateEvent_passes.bind fun _ => respects_fallible _)
    obtain ⟨_, w₁, hinv, h⟩ := exec_bind_ok.mp h
    obtain ⟨-, rfl⟩ := exec_fallible_ok.mp h
    exact Steps.single rfl (investigateEvent_step hinv)

theorem runToStage_simulates {config : HealthCheckConfig} {env : HealthCheckEnv} {alertId : ℕ}
    {target : HealthCheckStage} :
    Respects (Simulates rt fun a => a = .opened ∨ a = .investigated)
      (runToStage rt config env alertId target) := by
  have htriage : Respects (Leaves rt Db.files)
      (triageRun rt config.triage env.triage (some 50) false) :=
    triageRun_leaves fun _ _ _ _ _ => rfl
  unfold runToStage
  split
  · exact respects_pure _
  · refine (htriage.mono fun _ _ => Leaves.simulates).bind fun _ => ?_
    split
    · exact respects_pure _
    · refine (aggregationRun_simulates.mono fun _ _ h => h.mono fun _ => Or.inl).bind fun _ => ?_
      split
      · exact respects_pure _
      · exact investigateProbe_simulates.mono fun _ _ h => h.mono fun _ => Or.inr

theorem healthCheckRun_simulates {config : HealthCheckConfig} {env : HealthCheckRunEnv}
    {scenarios : List HealthCheckScenario} {useLock : Bool} :
    Respects (Simulates rt fun a => a = .opened ∨ a = .investigated)
      (healthCheckRun rt config env scenarios useLock) := by
  have one (scenario : HealthCheckScenario) :
      Respects (Simulates rt fun a => a = .opened ∨ a = .investigated)
        (healthCheckRunOne rt config (env.items scenario.name) scenario) :=
    (injectProbe_leaves.mono fun _ _ => Leaves.simulates).bind fun _ => runToStage_simulates
  unfold healthCheckRun
  split
  · exact respects_pure _
  · exact Loop.respects_run (fun _ _ _ _ hb => (one _).of_exec hb)
      fun _ _ _ _ hb => (one _).of_exec hb

def Label.acts : Label → Act → Prop
  | .configure _, _ | .ingest .., _ | .triage .., _ | .auditSample .., _ => False
  | .aggregate .., a => a = .opened
  | .investigate .., a => a = .investigated
  | .review config .., a => a = .moved ∨ a = .dispatched config.maxResend
  | .reply config .., a => a = .answered config.reinvestigationEnabled
  | .cancel .., a => a = .moved
  | .settle config .., a => a = .filed ∨ a = .closed config.requireDispositionConfirm
  | .confirm .., a | .reject .., a => a = .decided
  | .healthCheck .., a => a = .opened ∨ a = .investigated

theorem perform_simulates (l : Label) : Respects (Simulates rt l.acts) (perform rt l) := by
  cases l with
  | configure settings => exact simulates_silent fun _ => rfl
  | ingest env source maxBatches useLock =>
    exact (runForSource_leaves.mono fun _ _ => Leaves.simulates).map _
  | triage config env limit useLock =>
    have htriage : Respects (Leaves rt Db.files) (triageRun rt config env limit useLock) :=
      triageRun_leaves fun _ _ _ _ _ => rfl
    exact (htriage.mono fun _ _ => Leaves.simulates).map _
  | aggregate config env limit useLock => exact aggregationRun_simulates.map _
  | auditSample enabled env limit =>
    have hsample : Respects (Leaves rt Db.files) (auditSampleRun enabled env limit) :=
      auditSampleRun_leaves fun _ _ => rfl
    exact (hsample.mono fun _ _ => Leaves.simulates).map _
  | investigate config env limit useLock => exact investigationRun_simulates.map _
  | review config env limit useLock => exact humanReviewRun_simulates.map _
  | reply config env rawContent externalMsgId responder requestId =>
    exact handleReply_simulates.map _
  | cancel commitFault requestId => exact cancelRequest_simulates.map _
  | settle config env limit useLock => exact assetPipelineRun_simulates.map _
  | confirm now commitFault recordId action by_ =>
    exact confirmDisposition_simulates.map _
  | reject now commitFault recordId => exact rejectDisposition_simulates.map _
  | healthCheck config env scenarios useLock => exact healthCheckRun_simulates.map _

theorem docket_invariant {C : World → Label → Prop} {I : Docket → Prop} {w : World} (init : I {})
    (step : ∀ w l a d d', C w l → a = .tick ∨ l.acts a → Step rt.clock a d d' → I d → I d')
    (h : (system rt {}).ReachableBy C w) : I w.docket := by
  refine h.invariant (I := fun w => I w.docket) init fun w l w' hw hc hstep => ?_
  obtain rfl := Option.some.inj hstep
  exact (perform_simulates l w).invariant (fun a d d' ha => step w l a d d' hc ha) hw

theorem lawful_init : Docket.Lawful {} where
  ordered := ⟨nofun, .nil⟩
  verdictsBelow := nofun
  concluded := nofun

theorem lawful_of_reachable (hclock : rt.clock = .increasing) {C : World → Label → Prop}
    {w : World} (h : (system rt {}).ReachableBy C w) : w.docket.Lawful :=
  docket_invariant lawful_init (fun _ _ _ _ _ _ _ hs => (hclock ▸ hs).lawful) h

/-- The investigation of its event that started after all the others. -/
def IsLatestInvestigation (db : Db) (e i : ℕ) : Prop :=
  ∃ inv, db.investigations[i]? = some inv ∧ inv.eventId = e ∧
    ∀ (j : ℕ) (inv' : Investigation), db.investigations[j]? = some inv' → inv'.eventId = e →
      j ≠ i → inv'.startedAt < inv.startedAt

theorem isLatestInvestigation_of_latestOf {w : World} {e i : ℕ} {core : InvestigationCore}
    (ho : w.docket.Ordered) (h : LatestOf w.docket.investigations e i core) :
    IsLatestInvestigation w.db e i := by
  obtain ⟨inv, hinv, rfl⟩ : ∃ inv, w.db.investigations[i]? = some inv ∧ inv.core = core := by
    simpa [World.docket, Db.docket] using h.row
  refine ⟨inv, hinv, h.eventId, fun j inv' hj he hne => ?_⟩
  have hj' : w.docket.investigations[j]? = some inv'.core := by
    simp [World.docket, Db.docket, hj]
  have hle : inv'.startedAt ≤ inv.startedAt := h.last j inv'.core hj' he
  obtain ⟨f, hf, hlt, -⟩ := ho.finishedAt h.row
  rcases Nat.lt_or_gt_of_ne hne with hlt' | hgt
  · obtain ⟨f', hf', hs', -⟩ := ho.finishedAt hj'
    exact hs'.trans (ho.lt_of_lt hlt' hj' h.row hf')
  · have hlater : f < inv'.startedAt := ho.lt_of_lt hgt h.row hj' hf
    exact absurd (hlt.trans hlater) (not_lt.mpr hle)

end Minsight

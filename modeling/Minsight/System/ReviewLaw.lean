import Minsight.System.Simulation

/-! # The requests of human review

How many requests an event has, and what the ones that are sent refer to after a review run.
-/

namespace Minsight

open Tx Session Docket

variable {rt : Runtime} {config : HumanReviewConfig}

/-- Review and replies run under this configuration. -/
def Label.ReviewsWith (config : HumanReviewConfig) : Label → Prop
  | .review c .. | .reply c .. => c = config
  | _ => True

theorem fewRequests_init (n : ℕ) : Docket.FewRequests n {} :=
  ⟨fun _ => Nat.zero_le 1, fun _ => Nat.zero_le n⟩

theorem Label.ReviewsWith.dispatches {l : Label} (h : l.ReviewsWith config) {m : ℤ}
    (ha : Act.dispatched m = .tick ∨ l.acts (.dispatched m)) : m = config.maxResend := by
  rcases ha with ha | ha
  · cases ha
  · cases l with
    | review c env limit useLock =>
      obtain rfl : c = config := h
      rcases ha with ha | ha
      · cases ha
      · exact Act.dispatched.inj ha
    | healthCheck => rcases ha with ha | ha <;> cases ha
    | settle => rcases ha with ha | ha <;> cases ha
    | configure => exact ha.elim
    | ingest => exact ha.elim
    | triage => exact ha.elim
    | auditSample => exact ha.elim
    | aggregate => cases ha
    | investigate => cases ha
    | reply => cases ha
    | cancel => cases ha
    | confirm => cases ha
    | reject => cases ha

theorem fewRequests_of_reachable {w : World}
    (h : (system rt {}).ReachableBy (fun _ l => l.ReviewsWith config) w) :
    w.docket.FewRequests (config.maxResend + 1).toNat := by
  refine docket_invariant (fewRequests_init _) (fun w l a d d' hl ha hs => ?_) h
  refine hs.fewRequests fun m hm => hl.dispatches ?_
  rwa [hm] at ha

/--
While review runs under one configuration and the clock increases, an event never has two
requests that are sent nor more than the resends allow, and after a review run every request
that is sent is about the latest investigation of an event that waits for a human.
-/
theorem review_dispatch_law (hclock : rt.clock = .increasing) {w : World}
    (h : (system rt {}).ReachableBy (fun _ l => l.ReviewsWith config) w) :
    (∀ e, requestCount w.db e (fun r => r.status == .sent) ≤ 1) ∧
      (∀ e, requestCount w.db e (fun _ => true) ≤ (config.maxResend + 1).toNat) ∧
      ∀ env limit useLock r w', config.enabled = true →
        exec (humanReviewRun rt config env limit useLock) w = (.ok r, w') →
        r.skippedLock = false → ∀ req ∈ w'.db.requests, req.status = .sent →
          (w'.db.events[req.eventId]?).map (·.status) = some .humanPending ∧
            IsLatestInvestigation w'.db req.eventId req.investigationId := by
  have hfew := fewRequests_of_reachable h
  refine ⟨fun e => ?_, fun e => ?_, ?_⟩
  · rw [← sentCount_eq]
    exact hfew.sent e
  · rw [← requestCount_eq]
    exact hfew.all e
  · intro env limit useLock r w' henabled hrun hlock req hreq hsent
    have hcurrent := humanReviewRun_sentCurrent hrun hlock henabled
    have hmem : req.core ∈ w'.docket.requests := List.mem_map_of_mem hreq
    obtain ⟨hpending, core, hlatest⟩ := hcurrent req.core hmem hsent
    refine ⟨by simpa [World.docket, Db.docket, HumanReviewRequest.core] using hpending, ?_⟩
    refine isLatestInvestigation_of_latestOf (Lawful.ordered ?_) hlatest
    have hreach : (system rt {}).ReachableBy (fun _ l => l.ReviewsWith config) w' := by
      refine h.step (l := .review config env limit useLock) rfl ?_
      simp [system, perform, hrun]
    exact lawful_of_reachable hclock hreach

def investigatedWorld : World :=
  ((system (sampleRuntime .increasing []) {}).run investigatedRun {}).getD {}

theorem investigatedWorld_reachable : (system (sampleRuntime .increasing []) {}).ReachableBy
    (fun _ l => l.ReviewsWith {}) investigatedWorld := by
  have hrun : (system (sampleRuntime .increasing []) {}).run investigatedRun {} =
    some investigatedWorld := rfl
  refine System.reachableBy_of_run (System.runsBy_of_labels fun l hl => ?_) hrun
  simp only [investigatedRun, List.mem_cons, List.not_mem_nil, or_false] at hl
  rcases hl with rfl | rfl | rfl | rfl | rfl <;> trivial

/-- The review run that asks about the only event. -/
def firstReview : Session HumanReviewRunResult :=
  humanReviewRun (sampleRuntime .increasing []) {} {
    expireAt := hours 4
    items := fun _ => { uuid := "r", now := hours 4 } } none true

theorem review_dispatch_law_investigated :
    ∃ r w', exec firstReview investigatedWorld = (.ok r, w') ∧
      w'.db.requests.map (·.status) = [.sent] ∧
      ∀ req ∈ w'.db.requests, req.status = .sent →
        (w'.db.events[req.eventId]?).map (·.status) = some .humanPending ∧
          IsLatestInvestigation w'.db req.eventId req.investigationId := by
  have hrun : returned firstReview investigatedWorld = some { dispatched := 1 } := by
    decide +kernel
  refine ⟨_, _, exec_of_returned hrun, by decide +kernel, ?_⟩
  exact (review_dispatch_law rfl investigatedWorld_reachable).2.2 _ _ _ _ _ rfl
    (exec_of_returned hrun) rfl

end Minsight

import Minsight.Review.Delivery
import Minsight.System.Reinvestigation

/-! # Answered investigations

A reply takes its event out of the events that wait for a human, if it is handled with
re-investigation. Then the event comes back only with a newer investigation, which has no answer.
-/

namespace Minsight

open Tx Session Docket

variable {rt : Runtime} {config : HumanReviewConfig} {env : HumanReviewRunEnv} {limit : Option ℤ}
  {useLock : Bool} {w w₁ : World} {cs : List DispatchCandidate}

theorem Docket.Steps.answered {k : ClockKind} {d d' : Docket} (h : Steps k (· = .moved) d d') :
    d'.requests.length = d.requests.length ∧ ∀ i, d'.Answered i ↔ d.Answered i := by
  refine h.rel (R := fun d d' => d'.requests.length = d.requests.length ∧
    ∀ i, d'.Answered i ↔ d.Answered i) (fun _ => ⟨rfl, fun _ => .rfl⟩) ?_ ?_
  · rintro d d' d'' ⟨hlen, hans⟩ ⟨hlen', hans'⟩
    exact ⟨hlen'.trans hlen, fun i => (hans' i).trans (hans i)⟩
  · rintro a d d' (rfl | rfl) hs
    · cases hs
      exact ⟨rfl, fun _ => .rfl⟩
    · cases hs with
      | moved retires => exact ⟨retires.length_eq.symm, fun i => answered_of_retires retires⟩

theorem reviewCandidates_ok
    (h : exec (reviewCandidates rt config env limit useLock) w = (.ok cs, w₁)) :
    Simulates rt (· = .moved) w w₁ ∧
      ∀ c ∈ cs, Dispatchable config.maxResend w₁.docket c.eventId c.investigationId := by
  unfold reviewCandidates at h
  split at h
  · simp only [exec_pure, Prod.mk.injEq, Except.ok.injEq] at h
    obtain ⟨rfl, rfl⟩ := h
    exact ⟨Steps.refl _, fun c hc => absurd hc List.not_mem_nil⟩
  split at h
  · simp only [exec_pure, Prod.mk.injEq, Except.ok.injEq] at h
    obtain ⟨rfl, rfl⟩ := h
    exact ⟨Steps.refl _, fun c hc => absurd hc List.not_mem_nil⟩
  obtain ⟨now, w₂, hnow, h⟩ := exec_bind_ok.mp h
  obtain ⟨_, w₃, hexpire, h⟩ := exec_bind_ok.mp h
  obtain ⟨_, w₄, hcancel, h⟩ := exec_bind_ok.mp h
  obtain ⟨n, w₅, hlimit, h⟩ := exec_bind_ok.mp h
  obtain ⟨-, -, rfl⟩ := exec_sqlLimit_ok.mp hlimit
  simp only [exec_fallible_bind_ok, exec_query_bind, exec_pure, Prod.mk.injEq, Except.ok.injEq] at h
  obtain ⟨-, -, rfl, rfl⟩ := h
  refine ⟨?_, fun c hc => dispatchable_of_mem hc⟩
  have hsteps₁ : Simulates rt (· = .moved) w w₂ := (simulates_utcNow env.expireAt).of_exec hnow
  have hsteps₂ : Simulates rt (· = .moved) w₂ w₃ := (simulates_mapRequests (A := (· = .moved)) rfl
    fun _ => expireStale_retires _).of_exec hexpire
  have hsteps₃ : Simulates rt (· = .moved) w₃ w₄ := (simulates_mapRequests (A := (· = .moved)) rfl
    (cancelObsolete_retires env.tie)).of_exec hcancel
  exact Steps.trans hsteps₁ (Steps.trans hsteps₂ hsteps₃)

/-- Replies are handled with re-investigation. -/
def Label.Reopens : Label → Prop
  | .reply config .. => config.reinvestigationEnabled = true
  | _ => True

theorem Label.Reopens.answers {l : Label} (h : l.Reopens) {a : Act} (ha : a = .tick ∨ l.acts a) :
    a ≠ .answered false := by
  rintro rfl
  rcases ha with ha | ha
  · cases ha
  · cases l with
    | reply config env rawContent externalMsgId responder requestId =>
      have hreopen : Act.answered false = .answered config.reinvestigationEnabled := ha
      rw [show config.reinvestigationEnabled = true from h] at hreopen
      cases hreopen
    | healthCheck => rcases ha with ha | ha <;> cases ha
    | settle => rcases ha with ha | ha <;> cases ha
    | review => rcases ha with ha | ha <;> cases ha
    | configure => exact ha.elim
    | ingest => exact ha.elim
    | triage => exact ha.elim
    | auditSample => exact ha.elim
    | aggregate => cases ha
    | investigate => cases ha
    | cancel => cases ha
    | confirm => cases ha
    | reject => cases ha

/-- What keeps an answered investigation from being the latest one of a waiting event. -/
structure Docket.Rests (d : Docket) : Prop where
  ordered : d.Ordered
  taken : d.Taken
  unanswered : d.Unanswered

theorem Docket.Step.rests {a : Act} {d d' : Docket} (hs : Step .increasing a d d')
    (ha : a ≠ .answered false) (h : d.Rests) : d'.Rests where
  ordered := hs.ordered h.ordered
  taken := hs.taken h.taken
  unanswered := hs.unanswered ha h.ordered h.taken h.unanswered

theorem rests_of_reachable (hclock : rt.clock = .increasing)
    (h : (system rt {}).ReachableBy (fun _ l => l.Reopens) w) : w.docket.Rests := by
  refine docket_invariant (I := Docket.Rests) ⟨lawful_init.ordered, nofun, nofun⟩
    (fun w l a d d' hl ha hs => ?_) h
  rw [hclock] at hs
  exact hs.rests (hl.answers ha)

/--
While the clock increases and every reply is handled with re-investigation, no review run asks
about an investigation one of whose requests has been answered: none of its candidates is about
such a one, and none of the requests it commits.
-/
theorem answered_investigations_rest (hclock : rt.clock = .increasing)
    (h : (system rt {}).ReachableBy (fun _ l => l.Reopens) w) :
    (∀ cs w₁, exec (reviewCandidates rt config env limit useLock) w = (.ok cs, w₁) →
      ∀ c ∈ cs, ∀ old ∈ w.db.requests, old.investigationId = c.investigationId →
        old.status ≠ .answered) ∧
    ∀ (n : ℕ) (req : HumanReviewRequest), w.db.requests.length ≤ n →
      (exec (humanReviewRun rt config env limit useLock) w).2.db.requests[n]? = some req →
      ∀ old ∈ w.db.requests, old.investigationId = req.investigationId →
        old.status ≠ .answered := by
  have hcandidates : ∀ cs w₁, exec (reviewCandidates rt config env limit useLock) w = (.ok cs, w₁) →
      ∀ c ∈ cs, ∀ old ∈ w.db.requests, old.investigationId = c.investigationId →
        old.status ≠ .answered := by
    intro cs w₁ hcs c hc old hold hid hanswered
    obtain ⟨hsteps, hdispatchable⟩ := reviewCandidates_ok hcs
    have hrests : w₁.docket.Rests := by
      refine Docket.Steps.invariant (fun a d d' ha hs => ?_) hsteps (rests_of_reachable hclock h)
      rw [hclock] at hs
      refine hs.rests ?_
      rcases ha with rfl | rfl <;> nofun
    obtain ⟨inv, hlatest⟩ := (hdispatchable c hc).latest
    have hnone := hrests.unanswered _ _ inv (hdispatchable c hc).pending hlatest
    exact hnone ((hsteps.answered.2 _).mpr ⟨old.core, List.mem_map_of_mem hold, hid, hanswered⟩)
  refine ⟨hcandidates, fun n req hn hreq => ?_⟩
  rw [humanReviewRun_db] at hreq
  split at hreq
  · rename_i cs w₁ hcs
    split at hreq
    · obtain ⟨rows, hrows, -, hnew⟩ := @dispatched_requests rt config w₁ env.items cs
      have hlen : w₁.db.requests.length = w.db.requests.length := by
        simpa [World.docket, Db.docket] using (reviewCandidates_ok hcs).1.answered.1
      rw [hrows, List.getElem?_append_right (hlen ▸ hn)] at hreq
      obtain ⟨-, c, hc, hid⟩ := hnew req (List.mem_of_getElem? hreq)
      rw [hid]
      exact hcandidates cs w₁ hcs c hc
    · rw [List.getElem?_eq_none hn] at hreq
      cases hreq
  · rw [List.getElem?_eq_none hn] at hreq
    cases hreq

/-- A reply that leaves its event where it is. -/
def Label.replyQuietly (now : Time) (requestId : ℕ) : Label :=
  .reply { reinvestigationEnabled := false } { answeredAt := now } "ok" none none (some requestId)

/-- The next review run asks again about the investigation that has been answered. -/
theorem answered_investigation_is_asked_again :
    ∃ w, (system (sampleRuntime .increasing []) {}).run
        (dispatchedRun ++ [.replyQuietly (hours 5) 0, .reviewAll (hours 6)]) {} = some w ∧
      w.db.requests.map (fun r => (r.investigationId, r.status)) = [(0, .answered), (0, .sent)] :=
  ⟨_, rfl, by decide +kernel⟩

/-- A review run at this time, whose requests have different identifiers. -/
def reviewEnv (now : Time) : HumanReviewRunEnv where
  expireAt := now
  items i := { uuid := toString now ++ toString i, now := now }

/-- Two events are asked about; one is answered and reopened, the request of the other is cancelled. -/
def reopenedRun : List Label :=
  [.oneSource,
    .ingestAll 0 [sampleAlert "a-1", { sampleAlert "a-2" with hostName := some "probe-host" }],
    .triageAll (hours 1), .aggregateAll (hours 2), .investigateAll (hours 3) (.error .external),
    .review {} (reviewEnv (hours 4)) none true, .replyTo (hours 5) 0, .cancel none 1]

def reopenedWorld : World :=
  ((system (sampleRuntime .increasing sampleDigests) {}).run reopenedRun {}).getD {}

theorem reopenedWorld_reachable : (system (sampleRuntime .increasing sampleDigests) {}).ReachableBy
    (fun _ l => l.Reopens) reopenedWorld := by
  have hrun : (system (sampleRuntime .increasing sampleDigests) {}).run reopenedRun {} =
    some reopenedWorld := rfl
  refine System.reachableBy_of_run (System.runsBy_of_labels fun l hl => ?_) hrun
  simp only [reopenedRun, List.mem_cons, List.not_mem_nil, or_false] at hl
  rcases hl with rfl | rfl | rfl | rfl | rfl | rfl | rfl | rfl <;> trivial

/-- The next run asks about the cancelled request's event again, and not about the answered one. -/
theorem answered_investigations_rest_cancelled :
    let after := (exec (humanReviewRun (sampleRuntime .increasing sampleDigests) {}
      (reviewEnv (hours 6)) none true) reopenedWorld).2.db
    reopenedWorld.db.events.map (·.status) = [.pendingReview, .humanPending] ∧
      after.requests.map (fun r => (r.investigationId, r.status)) =
        [(0, .answered), (1, .cancelled), (1, .sent)] ∧
      ∀ req, after.requests[2]? = some req → ∀ old ∈ reopenedWorld.db.requests,
        old.investigationId = req.investigationId → old.status ≠ .answered :=
  ⟨by decide +kernel, by decide +kernel, fun req hreq => (answered_investigations_rest rfl
    reopenedWorld_reachable).2 2 req (by decide +kernel) hreq⟩

end Minsight

import Minsight.System.AnswerLaw

/-! # The resend allowance

The allowance of an event is compared with the number of all its requests, however they ended.
No request is ever deleted, so an allowance that is used up stays so.
-/

namespace Minsight

open Tx Session Docket

variable {rt : Runtime}

/-- The number of expired requests about an investigation. -/
def expiredOf (db : Db) (investigationId : ℕ) : ℕ :=
  db.requests.countP fun r => r.investigationId == investigationId && r.status == .expired

/-- The request was answered or cancelled, or it expired and is about another investigation. -/
def HumanReviewRequest.endedOtherwise (investigationId : ℕ) (r : HumanReviewRequest) : Bool :=
  r.status == .answered || r.status == .cancelled
    || (r.status == .expired && r.investigationId != investigationId)

theorem requests_split {rows : Rows HumanReviewRequest} {e i : ℕ}
    (h : ∀ r ∈ rows, r.investigationId = i → r.eventId = e) :
    rows.countP (fun r => r.eventId == e && true) =
      rows.countP (fun r => r.eventId == e && r.status == .sent)
        + (rows.countP (fun r => r.investigationId == i && r.status == .expired)
          + rows.countP fun r => r.eventId == e && r.endedOtherwise i) := by
  induction rows with
  | nil => rfl
  | cons r rows ih =>
    have hr : r.investigationId = i → r.eventId = e := h r List.mem_cons_self
    simp only [List.countP_cons, ih fun r hr => h r (List.mem_cons_of_mem _ hr)]
    by_cases hi : r.investigationId = i
    · cases hs : r.status <;> simp [HumanReviewRequest.endedOtherwise, hi, hr hi, hs] <;> omega
    · by_cases he : r.eventId = e
      · cases hs : r.status <;> simp [HumanReviewRequest.endedOtherwise, hi, he, hs] <;> omega
      · simp [hi, he]

theorem latestHumanInvestigation_row {tie : ℕ → ℕ} {db : Db} {e i : ℕ}
    {conclusion : InvestigationConclusion}
    (h : latestHumanInvestigation tie db e = some (i, conclusion)) :
    ∃ inv, db.investigations[i]? = some inv ∧ inv.eventId = e := by
  simp only [latestHumanInvestigation, Option.bind_eq_bind, Option.bind_eq_some_iff,
    Prod.exists] at h
  obtain ⟨j, inv, hlatest, conclusion', -, hif⟩ := h
  split at hif
  · obtain ⟨rfl, -⟩ : j = i ∧ conclusion' = conclusion := by simpa using hif
    obtain ⟨hmem, -⟩ := Rows.head_orderLimit hlatest
    obtain ⟨hrow, he⟩ := Rows.mem_select.mp hmem
    exact ⟨inv, hrow, by simpa using he⟩
  · cases hif

theorem requestCount_of_unsent {w : World} (h : (system rt {}).Reachable w) {e i : ℕ}
    {inv : Investigation} (hinv : w.db.investigations[i]? = some inv) (he : inv.eventId = e)
    (hunsent : requestCount w.db e (fun r => r.status == .sent) = 0) :
    requestCount w.db e (fun _ => true) =
      expiredOf w.db i + requestCount w.db e (HumanReviewRequest.endedOtherwise i) := by
  have hevents : ∀ r ∈ w.db.requests, r.investigationId = i → r.eventId = e := by
    rintro r hr rfl
    obtain ⟨core, hcore, heq, -⟩ := taken_of_reachable h r.core (List.mem_map_of_mem hr)
    have hrow : w.docket.investigations[r.investigationId]? = some inv.core := by
      simp [World.docket, Db.docket, hinv]
    obtain rfl : inv.core = core := Option.some.inj (hrow.symm.trans hcore)
    exact heq.symm.trans he
  have hsplit := requests_split hevents
  unfold requestCount at hunsent ⊢
  rw [hsplit, hunsent, Nat.zero_add]
  rfl

theorem requestCount_le_of_moves {rs rs' : List RequestCore} (e : ℕ)
    (h : List.Forall₂ RequestCore.Moves rs rs') :
    rs.countP (fun r => r.eventId == e) ≤ rs'.countP (fun r => r.eventId == e) := by
  refine Rows.countP_le_of_forall₂ h.flip fun r r' hr hq => ?_
  rw [beq_iff_eq] at hq ⊢
  exact hr.eventId.trans hq

theorem Docket.Step.requestCount_le {k : ClockKind} {a : Act} {d d' : Docket} (e : ℕ)
    (hs : Step k a d d') : d.requestCount e ≤ d'.requestCount e := by
  cases hs with
  | tick => exact le_rfl
  | opened => exact le_rfl
  | investigated _ _ _ _ retires => exact requestCount_le_of_moves e (moves_of_retires retires)
  | moved retires => exact requestCount_le_of_moves e (moves_of_retires retires)
  | dispatched =>
    simp only [Docket.requestCount, dispatch, List.countP_append]
    exact Nat.le_add_right _ _
  | answered => exact requestCount_le_of_moves e (answer_moves _ _)
  | filed => exact le_rfl
  | closed => exact le_rfl
  | decided => exact le_rfl

/-- Whatever happens, an event has no fewer requests later. -/
theorem requestCount_le_of_reachable {w w' : World} (e : ℕ) (h : (system rt w).Reachable w') :
    requestCount w.db e (fun _ => true) ≤ requestCount w'.db e fun _ => true := by
  refine h.invariant (I := fun v => requestCount w.db e (fun _ => true) ≤
    requestCount v.db e fun _ => true) le_rfl fun v l v' hv _ hstep => hv.trans ?_
  obtain rfl := Option.some.inj hstep
  have hsteps : Simulates rt l.acts v (exec (perform rt l) v).2 := perform_simulates l v
  have hle := Steps.rel (R := fun d d' => d.requestCount e ≤ d'.requestCount e)
    (fun _ => le_rfl) (fun _ _ _ => le_trans) (fun _ _ _ _ hs => hs.requestCount_le e) hsteps
  rwa [World.docket, World.docket, requestCount_eq, requestCount_eq] at hle

/-- Nobody is being asked about an event that waits, although its latest conclusion asks for it. -/
structure Unasked (tie : ℕ → ℕ) (db : Db) (e : ℕ) (event : Event) (i : ℕ) : Prop where
  row : db.events[e]? = some event
  pending : event.status = .humanPending
  real : eventIsProbe db e = false
  unsent : requestCount db e (fun r => r.status == .sent) = 0
  asks : ∃ conclusion, latestHumanInvestigation tie db e = some (i, conclusion)

theorem Unasked.awaitsDispatch_iff {w : World} (h : (system rt {}).Reachable w) {tie : ℕ → ℕ}
    {e i : ℕ} {event : Event} (hu : Unasked tie w.db e event i) (maxResend : ℤ) :
    awaitsDispatch maxResend w.db e event = true ↔
      ((expiredOf w.db i + requestCount w.db e (HumanReviewRequest.endedOtherwise i) : ℕ) : ℤ) ≤
        maxResend := by
  obtain ⟨conclusion, hlatest⟩ := hu.asks
  obtain ⟨inv, hinv, he⟩ := latestHumanInvestigation_row hlatest
  rw [awaitsDispatch, hu.pending, hu.unsent, requestCount_of_unsent h hinv he hu.unsent]
  simp

/--
In a state reached, expiries alone use up the allowance of an event iff the expired requests of
its latest investigation exceed it, or all its requests together do not. An allowance that is used
up by requests that ended otherwise is used up in every later state.
-/
theorem resend_allowance_iff {w : World} (h : (system rt {}).Reachable w) {tie : ℕ → ℕ}
    {e i : ℕ} {event : Event} (hu : Unasked tie w.db e event i) (maxResend : ℤ) :
    ((expiredOf w.db i ≤ maxResend → awaitsDispatch maxResend w.db e event = true) ↔
      (maxResend < expiredOf w.db i ∨ (expiredOf w.db i +
        requestCount w.db e (HumanReviewRequest.endedOtherwise i) : ℕ) ≤ maxResend)) ∧
      (awaitsDispatch maxResend w.db e event = false →
        ∀ w', (system rt w).Reachable w' → ∀ event' : Event,
          awaitsDispatch maxResend w'.db e event' = false) := by
  constructor
  · rw [hu.awaitsDispatch_iff h]
    omega
  · intro hused w' hw' event'
    have hall : ¬ (requestCount w.db e (fun _ => true) : ℤ) ≤ maxResend := by
      intro hle
      rw [awaitsDispatch, hu.pending, hu.unsent] at hused
      simp [hle] at hused
    have hmono := requestCount_le_of_reachable e hw'
    have hlater : ¬ (requestCount w'.db e (fun _ => true) : ℤ) ≤ maxResend := by omega
    simp [awaitsDispatch, hlater]

/-- A human is asked three times about the only event, and the question is withdrawn each time. -/
def withdrawnRun : List Label :=
  dispatchedRun ++ [.cancel none 0, .reviewAll (hours 5), .cancel none 1, .reviewAll (hours 6),
    .cancel none 2]

def withdrawnWorld : World :=
  ((system (sampleRuntime .increasing []) {}).run withdrawnRun {}).getD {}

theorem withdrawnWorld_reachable :
    (system (sampleRuntime .increasing []) {}).Reachable withdrawnWorld := by
  have hrun : (system (sampleRuntime .increasing []) {}).run withdrawnRun {} =
    some withdrawnWorld := rfl
  exact System.reachable_of_run hrun

theorem withdrawnWorld_facts :
    (withdrawnWorld.db.events[0]?).map (·.status) = some .humanPending ∧
      withdrawnWorld.db.requests.map (fun r => (r.eventId, r.status)) =
        [(0, .cancelled), (0, .cancelled), (0, .cancelled)] ∧
      eventIsProbe withdrawnWorld.db 0 = false ∧
      (latestHumanInvestigation id withdrawnWorld.db 0).map Prod.fst = some 0 := by
  decide +kernel

/-- How many requests an event has that ended in some way, from the ends of all requests. -/
theorem requestCount_of_ends {db : Db} {ends : List (ℕ × HumanReviewStatus)}
    (h : db.requests.map (fun r => (r.eventId, r.status)) = ends) (e : ℕ)
    (p : HumanReviewStatus → Bool) :
    requestCount db e (fun r => p r.status) = ends.countP fun x => x.1 == e && p x.2 := by
  rw [← h, List.countP_map]
  rfl

theorem withdrawnWorld_unasked : ∃ event, Unasked id withdrawnWorld.db 0 event 0 := by
  obtain ⟨hevent, hrequests, hreal, hlatest⟩ := withdrawnWorld_facts
  obtain ⟨event, hrow, hpending⟩ := Option.map_eq_some_iff.mp hevent
  obtain ⟨⟨i, conclusion⟩, hlatest, rfl⟩ := Option.map_eq_some_iff.mp hlatest
  refine ⟨event, hrow, hpending, hreal, ?_, conclusion, hlatest⟩
  rw [requestCount_of_ends hrequests 0 (· == .sent)]
  rfl

theorem withdrawnWorld_spent (event : Event) :
    awaitsDispatch 2 withdrawnWorld.db 0 event = false := by
  have hcount : requestCount withdrawnWorld.db 0 (fun _ => true) = 3 :=
    requestCount_of_ends withdrawnWorld_facts.2.1 0 fun _ => true
  simp [awaitsDispatch, hcount]

/-- Nobody is asked about the event again, although none of its requests has expired. -/
theorem withdrawn_requests_use_up_allowance :
    (system (sampleRuntime .increasing []) {}).Reachable withdrawnWorld ∧
      ∃ event, Unasked id withdrawnWorld.db 0 event 0 ∧ expiredOf withdrawnWorld.db 0 = 0 ∧
        awaitsDispatch 2 withdrawnWorld.db 0 event = false := by
  obtain ⟨event, hu⟩ := withdrawnWorld_unasked
  refine ⟨withdrawnWorld_reachable, event, hu, ?_, withdrawnWorld_spent event⟩
  refine List.countP_eq_zero.mpr fun r hr hexpired => ?_
  have hmem : (r.eventId, r.status) ∈ [(0, .cancelled), (0, .cancelled), (0, .cancelled)] :=
    withdrawnWorld_facts.2.1 ▸ List.mem_map_of_mem hr
  rw [Bool.and_eq_true, beq_iff_eq, beq_iff_eq] at hexpired
  rw [hexpired.2] at hmem
  simp at hmem

theorem resend_allowance_withdrawn : ∃ event, Unasked id withdrawnWorld.db 0 event 0 ∧
    ∀ w', (system (sampleRuntime .increasing []) withdrawnWorld).Reachable w' →
      ∀ event' : Event, awaitsDispatch 2 w'.db 0 event' = false := by
  obtain ⟨event, hu⟩ := withdrawnWorld_unasked
  exact ⟨event, hu,
    (resend_allowance_iff withdrawnWorld_reachable hu 2).2 (withdrawnWorld_spent event)⟩

end Minsight

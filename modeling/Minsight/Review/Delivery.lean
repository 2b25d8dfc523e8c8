import Minsight.Lifecycle.ReviewSteps

/-! # Messages and the requests that are committed

A review run sends a message for each candidate and inserts its request, and commits once at its
end. A run can end before that: the process may die, or the commit may fail.
-/

namespace Minsight

open Tx Session

variable {rt : Runtime} {config : HumanReviewConfig} {env : HumanReviewRunEnv} {limit : Option ℤ}
  {useLock : Bool} {w : World}

/-- What a run does before it dispatches: the candidates of the run. -/
def reviewCandidates (rt : Runtime) (config : HumanReviewConfig) (env : HumanReviewRunEnv)
    (limit : Option ℤ) (useLock : Bool) : Session (List DispatchCandidate) := do
  if useLock && !env.lockAcquired then pure []
  else if !config.enabled then pure []
  else
    let now ← utcNow rt env.expireAt
    let cutoff := now - hours config.timeoutHours
    Session.modify fun db => { db with requests := db.requests.map (expireStale cutoff) }
    Session.modify fun db => { db with requests := db.requests.map (cancelObsolete env.tie db) }
    let n ← sqlLimit (limitOr limit config.batchSize)
    Tx.fallible env.selectFault
    let candidates ← Session.query (pickDispatchCandidates env.tie config.maxResend n)
    Tx.fallible env.adapterFault
    pure candidates

def dispatched (rt : Runtime) (config : HumanReviewConfig) (items : ℕ → DispatchEnv)
    (cs : List DispatchCandidate) (w : World) : World :=
  cs.foldl (fun w c => (exec (dispatchOne rt config (items c.eventId) c) w).2) w

theorem exec_dispatchAll {items : ℕ → DispatchEnv} {result : HumanReviewRunResult}
    {cs : List DispatchCandidate} : ∃ result', exec (dispatchAll rt config items result cs) w =
      (.ok result', dispatched rt config items cs w) := by
  induction cs generalizing result w with
  | nil => exact ⟨result, rfl⟩
  | cons c cs ih =>
    obtain ⟨next, hnext⟩ := exec_dispatchAll_cons items result c cs w
    rw [hnext]
    exact ih

theorem humanReviewRun_db : (exec (humanReviewRun rt config env limit useLock) w).2.db =
    match exec (reviewCandidates rt config env limit useLock) w with
    | (.ok cs, w₁) =>
      if env.commitFault = none then (dispatched rt config env.items cs w₁).db else w.db
    | (.error _, _) => w.db := by
  rw [humanReviewRun, reviewCandidates, exec_atomically]
  cases hlock : useLock && !env.lockAcquired with
  | true => exact (ite_self _).symm
  | false =>
    cases henabled : config.enabled with
    | false => exact (ite_self _).symm
    | true =>
      simp only [Bool.false_eq_true, if_false, Bool.not_true, exec_utcNow_bind, exec_query_bind,
        exec_modify_bind]
      generalize { w with
        db := _, out := _ : World } = w₁
      rcases hlimit : exec (sqlLimit (limitOr limit config.batchSize)) w₁ with ⟨x | n, w₂⟩
      · rw [exec_bind_of_error hlimit, exec_bind_of_error hlimit]
        rfl
      rw [exec_bind_of_ok hlimit, exec_bind_of_ok hlimit]
      cases env.selectFault with
      | some x => rfl
      | none =>
        cases env.adapterFault with
        | some x => rfl
        | none =>
          rw [show (fallible none : Session Unit) = pure () from rfl, exec_bind_pure, exec_bind_pure,
            exec_query_bind, exec_bind_pure, exec_query_bind, exec_bind_pure]
          generalize HumanReviewRunResult.mk 0 _ _ false false [] = start
          obtain ⟨result, hall⟩ : ∃ result, exec (dispatchAll rt config env.items start
              (pickDispatchCandidates env.tie config.maxResend n w₂.db)) w₂ = (.ok result, _) :=
            exec_dispatchAll
          rw [exec_bind_of_ok hall]
          cases env.commitFault with
          | some x => rfl
          | none => rfl

def messagesSent (config : HumanReviewConfig) (items : ℕ → DispatchEnv)
    (cs : List DispatchCandidate) : List String :=
  cs.filterMap fun c =>
    let uuid := (items c.eventId).uuid
    match (items c.eventId).send (buildReviewMessage uuid c.event c.conclusion config.messageMaxChars)
      with
    | .ok _ => some uuid
    | .error _ => none

theorem mem_messagesSent {items : ℕ → DispatchEnv} {cs : List DispatchCandidate} {uuid : String}
    (h : uuid ∈ messagesSent config items cs) : ∃ e, uuid = (items e).uuid := by
  obtain ⟨c, -, hc⟩ := List.mem_filterMap.mp h
  dsimp only at hc
  split at hc
  · exact ⟨c.eventId, (Option.some.inj hc).symm⟩
  · cases hc

def IsRequestFor (cs : List DispatchCandidate) (r : HumanReviewRequest) : Prop :=
  r.status = .sent ∧ ∃ c ∈ cs, r.investigationId = c.investigationId

theorem dispatchOne_requests {items : ℕ → DispatchEnv} {c : DispatchCandidate} :
    ∃ rows, (exec (dispatchOne rt config (items c.eventId) c) w).2.db.requests =
        w.db.requests ++ rows ∧
      rows.map (·.uuid) = messagesSent config items [c] ∧ ∀ r ∈ rows, IsRequestFor [c] r := by
  rw [dispatchOne]
  cases hsend : (items c.eventId).send (buildReviewMessage (items c.eventId).uuid c.event
      c.conclusion config.messageMaxChars) with
  | error x => exact ⟨[], (List.append_nil _).symm, by simp [messagesSent, hsend], nofun⟩
  | ok id =>
    refine ⟨[_], rfl, by simp [messagesSent, hsend], fun r hr => ?_⟩
    rw [List.mem_singleton.mp hr]
    exact ⟨rfl, c, List.mem_singleton_self c, rfl⟩

theorem dispatched_requests {items : ℕ → DispatchEnv} {cs : List DispatchCandidate} :
    ∃ rows, (dispatched rt config items cs w).db.requests = w.db.requests ++ rows ∧
      rows.map (·.uuid) = messagesSent config items cs ∧ ∀ r ∈ rows, IsRequestFor cs r := by
  induction cs generalizing w with
  | nil => exact ⟨[], (List.append_nil _).symm, rfl, nofun⟩
  | cons c cs ih =>
    obtain ⟨first, hfirst, huuid, hsent⟩ :=
      @dispatchOne_requests rt config w items c
    obtain ⟨rest, hrest, huuids, hsents⟩ := ih (w := (exec (dispatchOne rt config
      (items c.eventId) c) w).2)
    refine ⟨first ++ rest, ?_, ?_, fun r hr => ?_⟩
    · rw [← List.append_assoc, ← hfirst]
      exact hrest
    · rw [List.map_append, huuid, huuids, messagesSent, messagesSent, messagesSent,
        ← List.filterMap_append, List.singleton_append]
    · rcases List.mem_append.mp hr with hr | hr
      · obtain ⟨hstatus, c', hc', hid⟩ := hsent r hr
        exact ⟨hstatus, c', List.mem_cons.mpr (.inl (List.mem_singleton.mp hc')), hid⟩
      · obtain ⟨hstatus, c', hc', hid⟩ := hsents r hr
        exact ⟨hstatus, c', List.mem_cons_of_mem _ hc', hid⟩

/-- A run dies when it has tried so many candidates and has not committed, or comes to its end. -/
inductive RunEnd
  | killed (tried : ℕ)
  | finished
  deriving DecidableEq

def RunEnd.tried {α : Type} : RunEnd → List α → List α
  | .killed n, cs => cs.take n
  | .finished, cs => cs

/-- The messages sent in a run that ends so. -/
def sentBy (rt : Runtime) (config : HumanReviewConfig) (env : HumanReviewRunEnv)
    (limit : Option ℤ) (useLock : Bool) (ending : RunEnd) (w : World) : List String :=
  match exec (reviewCandidates rt config env limit useLock) w with
  | (.ok cs, _) => messagesSent config env.items (ending.tried cs)
  | (.error _, _) => []

/-- What is committed when a run ends so. -/
def committedBy (rt : Runtime) (config : HumanReviewConfig) (env : HumanReviewRunEnv)
    (limit : Option ℤ) (useLock : Bool) (ending : RunEnd) (w : World) : Db :=
  match ending with
  | .killed _ => w.db
  | .finished => (exec (humanReviewRun rt config env limit useLock) w).2.db

theorem committedBy_of_lost {ending : RunEnd}
    (h : ¬(ending = .finished ∧ env.commitFault = none)) :
    committedBy rt config env limit useLock ending w = w.db := by
  cases ending with
  | killed n => rfl
  | finished =>
    have hfault : env.commitFault ≠ none := fun hnone => h ⟨rfl, hnone⟩
    rw [committedBy, humanReviewRun_db]
    split
    · exact if_neg hfault
    · rfl

/--
Every message that a run sends has its request committed and waiting, exactly if the run sends
none or comes to its end and its commit succeeds.
-/
theorem sent_messages_have_requests_iff {ending : RunEnd}
    (hfresh : ∀ req ∈ w.db.requests, ∀ e, req.uuid ≠ (env.items e).uuid) :
    (∀ uuid ∈ sentBy rt config env limit useLock ending w,
      ∃ req ∈ (committedBy rt config env limit useLock ending w).requests,
        req.uuid = uuid ∧ req.status = .sent) ↔
    sentBy rt config env limit useLock ending w = [] ∨
      ending = .finished ∧ env.commitFault = none := by
  constructor
  · intro hall
    by_contra hlost
    rw [not_or] at hlost
    obtain ⟨uuid, huuid⟩ := List.exists_mem_of_ne_nil _ hlost.1
    obtain ⟨req, hreq, hid, -⟩ := hall uuid huuid
    rw [committedBy_of_lost hlost.2] at hreq
    have hitem : ∃ e, uuid = (env.items e).uuid := by
      unfold sentBy at huuid
      split at huuid
      · exact mem_messagesSent huuid
      · cases huuid
    obtain ⟨e, he⟩ := hitem
    exact hfresh req hreq e (hid.trans he)
  · rintro (hnone | ⟨rfl, hcommit⟩) uuid huuid
    · rw [hnone] at huuid
      cases huuid
    · unfold sentBy at huuid
      rw [committedBy, humanReviewRun_db]
      split at huuid
      · rename_i cs w₁ hcs
        obtain ⟨rows, hrows, huuids, hsent⟩ := @dispatched_requests rt config w₁ env.items cs
        rw [if_pos hcommit, hrows]
        rw [RunEnd.tried, ← huuids] at huuid
        obtain ⟨req, hreq, hid⟩ := List.mem_map.mp huuid
        exact ⟨req, List.mem_append_right _ hreq, hid, (hsent req hreq).1⟩
      · cases huuid

/-- One event waits for a human, and nothing has been sent yet. -/
def answeredWorld : World where
  db := {
    events := [{ eventKey := "k", status := .humanPending, createdAt := 0 }]
    investigations := [{ eventId := 0, modelName := "m", maxSteps := 1, startedAt := 0,
                         status := .needsHuman }]
    conclusions := [{
      investigationId := 0
      verdict := .insufficientInformation
      confidence := 1
      riskLevel := .medium
      reasoning := "unclear" }] }

/-- A run whose message is sent and whose commit fails. -/
def uncommittedReview : HumanReviewRunEnv where
  expireAt := 0
  commitFault := some .external
  items := fun _ => { uuid := "r", now := 0 }

/-- The message is out, and no request is there for its reply. -/
theorem message_without_request :
    sentBy (sampleRuntime .increasing []) {} uncommittedReview none true .finished answeredWorld =
        ["r"] ∧
      (committedBy (sampleRuntime .increasing []) {} uncommittedReview none true .finished
        answeredWorld).requests = [] := by
  constructor
  · decide +kernel
  · exact congrArg Db.requests (committedBy_of_lost (by decide))

theorem sent_messages_have_requests_pending :
    sentBy (sampleRuntime .increasing []) {} { uncommittedReview with commitFault := none } none true
        .finished answeredWorld = ["r"] ∧
      ∀ uuid ∈ sentBy (sampleRuntime .increasing []) {}
        { uncommittedReview with commitFault := none } none true .finished answeredWorld,
        ∃ req ∈ (committedBy (sampleRuntime .increasing []) {}
          { uncommittedReview with commitFault := none } none true .finished answeredWorld).requests,
          req.uuid = uuid ∧ req.status = .sent :=
  ⟨by decide +kernel, (sent_messages_have_requests_iff fun _ hreq => absurd hreq
    List.not_mem_nil).mpr (.inr ⟨rfl, rfl⟩)⟩

end Minsight

import Minsight.System.Simulation

/-! # Replies and the selection of events

A reply puts its event back into the queue and completes the investigation that asked for
it. The selection of events skips every event that has a completed investigation.
-/

namespace Minsight

open Tx Session Docket

variable {rt : Runtime} {config : HumanReviewConfig}

theorem handleReply_triggered {env : ReplyEnv} {rawContent : String}
    {externalMsgId responder : Option String} {requestId : Option ℕ} {w w' : World}
    {r : HandleReplyResult}
    (h : exec (handleReply rt config env rawContent externalMsgId responder requestId) w =
      (.ok r, w')) (htriggered : r.reinvestigationTriggered = true) :
    ∃ rid req event response answeredAt, w.db.requests[rid]? = some req ∧ req.status = .sent ∧
      w.db.events[req.eventId]? = some event ∧ config.reinvestigationEnabled = true ∧
      r.eventId = some req.eventId ∧
      w'.db = recordReply config rid req response answeredAt w.db := by
  have h := exec_atomically_ok.mp h
  simp only [exec_fallible_bind_ok, exec_query_bind] at h
  obtain ⟨-, h⟩ := h
  split at h
  · simp only [exec_pure, Prod.mk.injEq, Except.ok.injEq] at h
    rw [← h.1] at htriggered
    cases htriggered
  · rename_i rid req content hreplied
    obtain ⟨hrow, hsent⟩ := findRepliedRequest_ok hreplied
    simp only [exec_fallible_bind_ok] at h
    obtain ⟨-, h⟩ := h
    split at h
    · simp at h
    · simp only [exec_pure, Prod.mk.injEq, Except.ok.injEq] at h
      rw [← h.1] at htriggered
      cases htriggered
    · simp only [exec_utcNow_bind] at h
      split at h
      · rename_i hif
        obtain ⟨hevent, henabled⟩ := Bool.and_eq_true_iff.mp hif
        obtain ⟨event, hevent⟩ := Option.isSome_iff_exists.mp hevent
        simp only [exec_fallible_bind_ok, exec_utcNow_bind, markReinvestigation,
          exec_setRedis_bind, exec_modify_bind, exec_pure, Prod.mk.injEq, Except.ok.injEq] at h
        obtain ⟨-, -, rfl, rfl⟩ := h
        exact ⟨rid, req, event, _, _, hrow, hsent, hevent, henabled, rfl, rfl⟩
      · simp only [exec_fallible_bind_ok, exec_modify_bind, exec_pure, Prod.mk.injEq,
          Except.ok.injEq] at h
        obtain ⟨-, rfl, rfl⟩ := h
        exact absurd htriggered ‹_›

theorem isPickable_of_completed {db : Db} {e i : ℕ} {event : Event} {inv : Investigation}
    (hinv : db.investigations[i]? = some inv) (he : inv.eventId = e)
    (hstatus : inv.status = .completed) : isPickable db e event = false := by
  have hany : (db.investigations.any fun i =>
      i.eventId == e && (i.status == .running || i.status == .completed)) = true :=
    List.any_eq_true.mpr ⟨inv, List.mem_of_getElem? hinv, by simp [he, hstatus]⟩
  simp [isPickable, hany]

/-- In every state reached, the investigation a request is about asked for a human. -/
theorem taken_of_reachable {w : World} (h : (system rt {}).Reachable w) : w.docket.Taken :=
  docket_invariant (I := Docket.Taken) nofun (fun _ _ _ _ _ _ _ => Step.taken) h

theorem recordReply_completes (config : HumanReviewConfig) (rid : ℕ) {req : HumanReviewRequest}
    (response : HumanReviewResponse) (answeredAt : Time) {db : Db} {inv : Investigation}
    (hinv : db.investigations[req.investigationId]? = some inv) (hasked : inv.core.Asked) :
    ∃ inv', (recordReply config rid req response answeredAt db).investigations[
      req.investigationId]? = some inv' ∧ inv'.eventId = inv.eventId ∧ inv'.status = .completed := by
  refine ⟨_, Rows.getElem?_update.mpr (.inl ⟨rfl, inv, hinv, rfl⟩), ?_, ?_⟩
  · split <;> rfl
  · split
    · rfl
    · exact hasked.resolve_left ‹_›

/--
In every state reached, a reply that succeeds and triggers a reinvestigation puts its event
back into the queue, and the event does not satisfy the condition under which a run selects
events.
-/
theorem replied_event_not_pickable {w w' : World} {env : ReplyEnv} {rawContent : String}
    {externalMsgId responder : Option String} {requestId : Option ℕ} {r : HandleReplyResult}
    (h : (system rt {}).Reachable w)
    (hreply : exec (handleReply rt config env rawContent externalMsgId responder requestId) w =
      (.ok r, w')) (htriggered : r.reinvestigationTriggered = true) :
    ∃ e event, r.eventId = some e ∧ w'.db.events[e]? = some event ∧
      event.status = .pendingReview ∧ isPickable w'.db e event = false := by
  obtain ⟨rid, req, event, response, answeredAt, hrow, -, hevent, henabled, he, hdb⟩ :=
    handleReply_triggered hreply htriggered
  have hmem : req.core ∈ w.docket.requests := List.mem_map_of_mem (List.mem_of_getElem? hrow)
  obtain ⟨core, hcore, heq, hasked⟩ := taken_of_reachable h _ hmem
  obtain ⟨inv, hinv, rfl⟩ : ∃ inv, w.db.investigations[req.investigationId]? = some inv ∧
      inv.core = core := by
    simpa [World.docket, Db.docket, HumanReviewRequest.core] using hcore
  obtain ⟨inv', hinv', heq', hstatus⟩ :=
    recordReply_completes config rid response answeredAt hinv hasked
  refine ⟨req.eventId, { event with status := .pendingReview }, he, ?_, rfl, ?_⟩
  · rw [hdb, recordReply, henabled]
    exact Rows.getElem?_update.mpr (.inl ⟨rfl, event, hevent, rfl⟩)
  · rw [hdb]
    exact isPickable_of_completed hinv' (heq'.trans heq) hstatus

/-- A human is asked about the only event. -/
def dispatchedRun : List Label := investigatedRun ++ [.reviewAll (hours 4)]

def dispatchedWorld : World :=
  ((system (sampleRuntime .increasing []) {}).run dispatchedRun {}).getD {}

theorem dispatchedWorld_reachable :
    (system (sampleRuntime .increasing []) {}).Reachable dispatchedWorld := by
  have hrun : (system (sampleRuntime .increasing []) {}).run dispatchedRun {} =
    some dispatchedWorld := rfl
  exact System.reachable_of_run hrun

/-- The reply to the first request. -/
def firstReply : Session HandleReplyResult :=
  handleReply (sampleRuntime .increasing []) {} { answeredAt := hours 5 } "ok" none none (some 0)

theorem firstReply_returned : returned firstReply dispatchedWorld =
    some { requestId := some 0, eventId := some 0, reinvestigationTriggered := true } := by
  decide +kernel

theorem replied_event_not_picked :
    (system (sampleRuntime .increasing []) {}).Reachable dispatchedWorld ∧
      dispatchedWorld.db.requests.map (·.status) = [.sent] ∧
      eventIsProbe dispatchedWorld.db 0 = false ∧
      ∃ r w', exec firstReply dispatchedWorld = (.ok r, w') ∧
        r.eventId = some 0 ∧ r.reinvestigationTriggered = true ∧
        w'.db.events.map (·.status) = [.pendingReview] ∧ pickEvents id 10 w'.db = [] :=
  ⟨dispatchedWorld_reachable, by decide +kernel, by decide +kernel, _, _,
    exec_of_returned firstReply_returned, rfl, rfl, by decide +kernel, by decide +kernel⟩

theorem replied_event_not_pickable_dispatched :
    ∃ r w', exec firstReply dispatchedWorld = (.ok r, w') ∧
      ∃ e event, r.eventId = some e ∧ w'.db.events[e]? = some event ∧
        event.status = .pendingReview ∧ isPickable w'.db e event = false :=
  ⟨_, _, exec_of_returned firstReply_returned, replied_event_not_pickable
    dispatchedWorld_reachable (exec_of_returned firstReply_returned) rfl⟩

end Minsight

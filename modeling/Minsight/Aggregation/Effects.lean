import Minsight.Aggregation.Service
import Minsight.Model.Footprint

/-! # What aggregation does

An alert that is aggregated is linked to the newest event of its key that awaits review, or
to an event created for it.
-/

namespace Minsight

open Tx Session

/-- The event chosen for an alert, and the events once it is there. -/
inductive EventChosen (tie : ℕ → ℕ) (alert : Alert) (dims : AggregationDimensions)
    (events : Rows Event) : ℕ → Rows Event → Prop
  | merged {eventId : ℕ} {event : Event}
      (target : findMergeTarget tie dims.eventKey (events.select fun _ _ => true) =
        some (eventId, event)) : EventChosen tie alert dims events eventId events
  | created (createdAt : Time)
      (target : findMergeTarget tie dims.eventKey (events.select fun _ _ => true) = none) :
      EventChosen tie alert dims events events.length (events ++ [newEvent alert dims createdAt])

theorem findMergeTarget_some {tie : ℕ → ℕ} {key : String} {events : List (ℕ × Event)}
    {eventId : ℕ} {event : Event} (h : findMergeTarget tie key events = some (eventId, event)) :
    (eventId, event) ∈ events ∧ event.eventKey = key ∧ event.status = .pendingReview := by
  have hmem := Rows.mem_of_mem_orderLimit (List.mem_of_mem_head? h)
  simpa using hmem

theorem findMergeTarget_none {tie : ℕ → ℕ} {key : String} {events : List (ℕ × Event)}
    (h : findMergeTarget tie key events = none) :
    ∀ e ∈ events, e.2.eventKey = key → e.2.status ≠ .pendingReview := by
  intro e he hkey hstatus
  have hmem : e ∈ events.filter fun e => e.2.eventKey == key && e.2.status == .pendingReview := by
    rw [List.mem_filter, hkey, hstatus, beq_self_eq_true, beq_self_eq_true]
    exact ⟨he, rfl⟩
  exact Rows.head_orderLimit_ne_none hmem h

section

variable {rt : Runtime} {config : AggregationConfig} {env : AggregationEnv} {tie : ℕ → ℕ}
  {item : PendingAlert} {w w' : World}

/-- The alert gets its link, and nothing but its status and its event changes besides. -/
def Linked (rt : Runtime) (config : AggregationConfig) (tie : ℕ → ℕ) (item : PendingAlert)
    (db db' : Db) : Prop :=
  ∃ dims eventId events now,
    normalizeDimensions rt config item.alert.hostName item.alert.userName
      item.alert.alertCategory item.alert.occurredAt = .ok dims ∧
    (∀ l ∈ db.eventAlerts, l.alertId ≠ item.alertId) ∧
    EventChosen tie item.alert dims db.events eventId events ∧
    db' = recordLink item eventId now (maxSeverityForEvent db eventId item.alert.severity)
      { db with events := events }

theorem eventFor_chosen {alert : Alert} {dims : AggregationDimensions} {eventId : ℕ}
    {created : Bool} (h : exec (eventFor rt env tie alert dims) w = (.ok (eventId, created), w')) :
    ∃ events, EventChosen tie alert dims w.db.events eventId events ∧
      w'.db = { w.db with events := events } := by
  simp only [eventFor, exec_fallible_bind_ok, exec_query_bind] at h
  replace h := h.2
  split at h
  · rename_i target htarget
    obtain ⟨⟨rfl, rfl⟩, rfl⟩ := by simpa using h
    exact ⟨_, .merged htarget, rfl⟩
  · rename_i htarget
    simp only [exec_utcNow_bind, exec_fallible_bind_ok, exec_modify_bind, exec_pure, Prod.mk.injEq,
      Except.ok.injEq] at h
    obtain ⟨-, ⟨rfl, -⟩, rfl⟩ := h
    exact ⟨_, .created _ htarget, rfl⟩

theorem aggregateOne_linked {created : Bool}
    (h : exec (aggregateOne rt config env tie item) w = (.ok created, w')) :
    Linked rt config tie item w.db w'.db := by
  simp only [aggregateOne, exec_utcNow_bind] at h
  split at h
  · simp at h
  · rename_i dims hdims
    obtain ⟨⟨eventId, c⟩, w₁, hfor, h⟩ := exec_bind_ok.mp h
    obtain ⟨events, hchosen, hdb⟩ := eventFor_chosen hfor
    simp only [exec_fallible_bind_ok, exec_query_bind] at h
    replace h := h.2
    split at h
    · simp at h
    · rename_i hfresh
      simp only [exec_modify_bind, exec_pure, Prod.mk.injEq] at h
      obtain ⟨-, rfl⟩ := h
      refine ⟨dims, eventId, events, rt.clock.reading w.out.clock env.now, hdims, ?_, hchosen, ?_⟩
      · simpa [hdb] using hfresh
      · rw [hdb]
        rfl

/-- An aggregation run relates the databases before and after as linking each alert does. -/
theorem aggregationRun_respects {r : Db → Db → Prop} [Std.Refl r] [IsTrans Db r]
    {runEnv : AggregationRunEnv} {limit : Option ℤ} {useLock : Bool}
    (h : ∀ item db db', Linked rt config runEnv.tie item db db' → r db db') :
    Respects (OnDb r) (aggregationRun rt config runEnv limit useLock) := by
  unfold aggregationRun
  split
  · exact respects_pure _
  · refine (respects_sqlLimit _).bind fun n => (respects_fallible _).bind fun _ =>
      (respects_query _).bind fun pending =>
      Loop.respects_run (fun item w _ w' hb => ?_) fun _ w _ _ _ => Std.Refl.refl (r := r) w.db
    obtain ⟨created, w₁, hone, hc⟩ := exec_bind_ok.mp hb
    simp only [exec_fallible_bind_ok, exec_pure, Prod.mk.injEq] at hc
    obtain ⟨-, -, rfl⟩ := hc
    exact h _ _ _ (aggregateOne_linked hone)

end

end Minsight

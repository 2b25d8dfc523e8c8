import Minsight.System.Step

/-! # Failing items of a batch

The triage, aggregation and investigation services go on with the next item when one fails.
Their exception branches read the failed item after the rollback has expired it.
-/

namespace Minsight

open Tx

variable {rt : Runtime}

theorem readAfterRollback_eq (hexpires : rt.rollbackExpires = true)
    (hraises : rt.expiredReadRaises = true) : rt.readAfterRollback = some .missingGreenlet := by
  simp [Runtime.readAfterRollback, hexpires, hraises]

/--
When a rollback expires the loaded objects and reading an expired one raises, a batch of any of
the three services isolates its failing items from the others exactly if no item fails.
-/
theorem batch_isolates_iff (hexpires : rt.rollbackExpires = true)
    (hraises : rt.expiredReadRaises = true) (w : World) :
    (∀ config env alerts, (triageLoop rt config env).Isolates World.db
        (fun r alert e => (alert.id, e) ∈ r.errors) alerts {} w ↔
      (triageLoop rt config env).failures alerts w = []) ∧
    (∀ config env items, (aggregationLoop rt config env).Isolates World.db
        (fun r item e => (item.alertId, e) ∈ r.errors) items {} w ↔
      (aggregationLoop rt config env).failures items w = []) ∧
    ∀ config env events, (investigationLoop rt config env).Isolates World.db
        (fun r eventId e => (eventId, e) ∈ r.errors) events {} w ↔
      (investigationLoop rt config env).failures events w = [] := by
  have hexpired := readAfterRollback_eq hexpires hraises
  exact ⟨fun _ _ _ => Loop.isolates_iff hexpired, fun _ _ _ => Loop.isolates_iff hexpired,
    fun _ _ _ => Loop.isolates_iff hexpired⟩

def ingestedRun : List Label :=
  [.oneSource, .ingestAll 0 [sampleAlert "a-1", sampleAlert "a-2"]]

def ingestedWorld : World :=
  ((system (sampleRuntime .increasing []) {}).run ingestedRun {}).getD {}

/-- The commit of the first alert fails. -/
def firstCommitFails : TriageRunEnv where
  items alertId := {
    dedupNow := hours 1
    faults := fun point => if alertId = 0 ∧ point = .commit then some .external else none }

/-- The second alert is not triaged, although the run without the first one triages it. -/
theorem failing_alert_ends_run :
    (exec (triageRun (sampleRuntime .increasing []) {} firstCommitFails none true)
        ingestedWorld).1.toOption.isSome = false ∧
      ((exec (triageRun (sampleRuntime .increasing []) {} firstCommitFails none true)
        ingestedWorld).2.db.alerts.map (·.status)) = [.new, .new] ∧
      ((exec ((triageLoop (sampleRuntime .increasing []) {} firstCommitFails).run
        ((fetchNewAlerts id 10 ingestedWorld.db).filter fun a => a.id != 0) {})
        ingestedWorld).2.db.alerts.map (·.status)) = [.new, .triaged] := by
  decide +kernel

/-- The batch with the failing alert is not isolated, the one without it is. -/
theorem batch_isolates_ingested :
    (¬ (triageLoop (sampleRuntime .increasing []) {} firstCommitFails).Isolates World.db
        (fun r alert e => (alert.id, e) ∈ r.errors) (fetchNewAlerts id 10 ingestedWorld.db) {}
        ingestedWorld) ∧
      (triageLoop (sampleRuntime .increasing []) {} firstCommitFails).Isolates World.db
        (fun r alert e => (alert.id, e) ∈ r.errors)
        ((fetchNewAlerts id 10 ingestedWorld.db).filter fun a => a.id != 0) {} ingestedWorld := by
  constructor
  · intro h
    have hnone := ((batch_isolates_iff rfl rfl ingestedWorld).1 _ _ _).mp h
    exact absurd (List.isEmpty_iff.mpr hnone) (by decide +kernel)
  · refine ((batch_isolates_iff rfl rfl ingestedWorld).1 _ _ _).mpr ?_
    exact List.isEmpty_iff.mp (by decide +kernel)

end Minsight

import Minsight.Foundation.Ranks
import Minsight.Review.Service

/-! # Starvation of dispatch

The query cuts the queue of waiting events at its limit. Probes and events nobody has to be asked
about are only dropped afterwards, so the ones ahead of an event take its place.
-/

namespace Minsight

variable {tie : ℕ → ℕ} {maxResend : ℤ} {n : ℕ} {db : Db} {x : ℕ × Event}

instance : Std.TransCmp (queueOrder tie) := by
  have heq : queueOrder tie = compareLex (fun x y => compareOn (·.2.queuePriority) y x)
      (compareLex (fun x y => compareOn (·.2.riskScore) y x)
        (compareLex (compareOn (Rows.nullHigh ·.2.lastAlertAt)) (compareOn (tie ·.1)))) := by
    funext x y
    simp only [queueOrder, compareTimes_eq]
    rfl
  rw [heq]
  infer_instance

instance : Std.Total fun x y => ((queueOrder tie x y).isLE : Prop) where
  total x y := by
    have hswap : queueOrder tie y x = (queueOrder tie x y).swap := Std.OrientedCmp.eq_swap
    rw [hswap]
    cases queueOrder tie x y <;> simp

instance : IsTrans (ℕ × Event) fun x y => ((queueOrder tie x y).isLE : Prop) where
  trans _ _ _ := Std.TransCmp.isLE_trans

/-- An event that waits, is no probe and whose latest conclusion asks for a human. -/
structure OwedReview (tie : ℕ → ℕ) (maxResend : ℤ) (db : Db) (x : ℕ × Event) : Prop where
  row : db.events[x.1]? = some x.2
  awaits : awaitsDispatch maxResend db x.1 x.2 = true
  real : eventIsProbe db x.1 = false
  asks : (latestHumanInvestigation tie db x.1).isSome = true

/-- The number of waiting events, owed a question or not, that the query puts before an event. -/
def queueRank (tie : ℕ → ℕ) (maxResend : ℤ) (db : Db) (x : ℕ × Event) : ℕ :=
  Rows.rank (fun x y => (queueOrder tie x y).isLE)
    (db.events.select (awaitsDispatch maxResend db)) x

theorem pickDispatchCandidates_ne_nil :
    pickDispatchCandidates tie maxResend n db ≠ [] ↔
      ∃ x ∈ Rows.orderLimit (fun x y => (queueOrder tie x y).isLE) n
        (db.events.select (awaitsDispatch maxResend db)),
        eventIsProbe db x.1 = false ∧ (latestHumanInvestigation tie db x.1).isSome = true := by
  unfold pickDispatchCandidates
  constructor
  · intro h
    obtain ⟨c, hc⟩ := List.exists_mem_of_ne_nil _ h
    obtain ⟨x, hx, hc⟩ := List.mem_filterMap.mp hc
    dsimp only at hc
    split at hc
    · cases hc
    · rename_i hprobe
      obtain ⟨i, hi, -⟩ := Option.map_eq_some_iff.mp hc
      exact ⟨x, hx, Bool.eq_false_of_not_eq_true hprobe, Option.isSome_of_eq_some hi⟩
  · rintro ⟨x, hx, hprobe, hasks⟩
    obtain ⟨i, hi⟩ := Option.isSome_iff_exists.mp hasks
    apply List.ne_nil_of_mem (a := ⟨x.1, x.2, i.1, i.2⟩)
    exact List.mem_filterMap.mpr ⟨x, hx, by simp [hprobe, hi]⟩

/--
That an event is owed a question gives a run a candidate exactly when the limit exceeds the number
of waiting events ahead of one of the owed ones.
-/
theorem dispatch_reaches_iff (tie : ℕ → ℕ) (maxResend : ℤ) (n : ℕ) (db : Db) :
    ((∃ x, OwedReview tie maxResend db x) → pickDispatchCandidates tie maxResend n db ≠ []) ↔
      ((∃ x, OwedReview tie maxResend db x) →
        ∃ x, OwedReview tie maxResend db x ∧ queueRank tie maxResend db x < n) := by
  refine imp_congr_right fun _ => ?_
  rw [pickDispatchCandidates_ne_nil, Rows.exists_mem_orderLimit_iff]
  constructor
  · rintro ⟨⟨e, event⟩, hx, ⟨hreal, hasks⟩, hrank⟩
    obtain ⟨hrow, hawaits⟩ := Rows.mem_select.mp hx
    exact ⟨(e, event), ⟨hrow, hawaits, hreal, hasks⟩, hrank⟩
  · rintro ⟨⟨e, event⟩, howed, hrank⟩
    exact ⟨(e, event), Rows.mem_select.mpr ⟨howed.row, howed.awaits⟩, ⟨howed.real, howed.asks⟩,
      hrank⟩

/-- A health probe and an attack wait for a human, and the probe has the higher priority. -/
def probeAhead : Db where
  dataSources := [{ name := "siem" }]
  alerts := [
    { dataSourceId := 0, sourceAlertId := "probe", fingerprint := "probe", occurredAt := 0,
      ingestedAt := 0, normalizedFields := .obj [(healthProbeKey, .bool true)] },
    { dataSourceId := 0, sourceAlertId := "a-1", fingerprint := "a-1", occurredAt := 0,
      ingestedAt := 0 }]
  events := [
    { eventKey := "probe", status := .humanPending, queuePriority := 1, createdAt := 0 },
    { eventKey := "attack", status := .humanPending, createdAt := 0 }]
  eventAlerts := [
    { eventId := 0, alertId := 0, addedAt := 0 }, { eventId := 1, alertId := 1, addedAt := 0 }]
  investigations := [
    { eventId := 0, status := .needsHuman, modelName := "m", startedAt := 0 },
    { eventId := 1, status := .needsHuman, modelName := "m", startedAt := 0 }]
  conclusions := [
    { investigationId := 0, verdict := .needsHumanReview, confidence := 0, riskLevel := .medium,
      reasoning := "probe" },
    { investigationId := 1, verdict := .needsHumanReview, confidence := 0, riskLevel := .medium,
      reasoning := "attack" }]

/-- The probe takes the only place of the run, and nobody is asked about the attack. -/
theorem probe_starves_dispatch :
    (∃ event, OwedReview id 2 probeAhead (1, event)) ∧
      pickDispatchCandidates id 2 1 probeAhead = [] := by
  refine ⟨⟨_, rfl, ?_, ?_, ?_⟩, ?_⟩ <;> decide +kernel

end Minsight

import Minsight.Concurrency.Knowledge

/-! # Alerts and the verdicts of their events

An investigation commits with the alerts its context was built from, in every interleaving. An
alert joins an event that has its verdict only when an investigation of the event commits between
the lookup of the event and the commit of the link.
-/

namespace Minsight

open Program

/-- A link is committed only if no investigation of its event was committed since the lookup. -/
def linksUnexamined : Shared JobStore JobWrite JobPoint → ℕ × JobAnswer → Bool :=
  commitsWhen unexamined

/-- An event with a verdict no longer awaits review, and has the alerts the verdict is about. -/
def VerdictsFinal (s : JobStore) : Prop :=
  ∀ v ∈ s.verdicts, alertsOf s.db.eventAlerts v.eventId = v.alerts ∧
    ∃ status, (s.db.events[v.eventId]?).map (·.status) = some status ∧
      status ≠ EventStatus.pendingReview

section

variable {rt : Runtime} {db : Db} {jobs : List Job} {s s' : Shared JobStore JobWrite JobPoint}
  {i : ℕ} {a : JobAnswer} {c : Connection JobWrite JobPoint} {store store' : JobStore}

/-- A verdict is about all alerts that are linked to the event when it is committed. -/
theorem verdict_linked (hs : (jobSystem rt db jobs).Reachable s) :
    ∀ v ∈ s.db.verdicts, v.linked = v.alerts := by
  refine (jobs_invariant (G := fun s => ∀ v ∈ s.verdicts, v.linked = v.alerts) ?_ ?_ hs).1
  · intro s i a c s' _ _ hG _ hcommit
    cases hcommit with
    | nothing => exact hG
    | placed _ _ _ _ _ verdicts => exact verdicts ▸ hG
    | concluded _ _ _ _ _ verdicts =>
      rw [verdicts]
      intro v hv
      rcases List.mem_append.mp hv with hold | hnew
      · exact hG v hold
      · rw [List.mem_singleton.mp hnew]
  · intro v hv
    cases hv

theorem VerdictsFinal.commit (h : VerdictsFinal store) (hcommit : Committed store c store')
    (hunexamined : ∀ job items p m, c.point = .placing job items p (.commit m) →
      unexamined store.db p = true) : VerdictsFinal store' := by
  cases hcommit with
  | nothing => exact h
  | @placed job items p m _ point _ known _ link verdicts =>
    intro v hv
    rw [verdicts] at hv
    obtain ⟨halerts, status, hstatus, hne⟩ := h v hv
    have hother : p.eventId store.db ≠ v.eventId := by
      obtain ⟨event, hevent, -⟩ := Option.map_eq_some_iff.mp hstatus
      cases htarget : p.target with
      | some e =>
        rw [Placement.eventId, htarget, Option.getD_some]
        rintro rfl
        have hawaits := known.awaits _ htarget (hunexamined job items p m point)
        exact hne (Option.some.inj (hstatus.symm.trans hawaits))
      | none =>
        rw [Placement.eventId, htarget, Option.getD_none]
        exact (Rows.lt_of_getElem? hevent).ne'
    refine ⟨?_, status, link.column (fun _ => rfl) hstatus, hne⟩
    rw [link.links, alertsOf_append hother]
    exact halerts
  | @concluded job events row alerts t result _ _ _ hexists known event verdicts =>
    intro v hv
    obtain ⟨newStatus, hnew, hevents⟩ := event.events
    have hconcluded : (store'.db.events[row.eventId]?).map (·.status) = some newStatus := by
      rw [hevents, List.getElem?_modify_eq, List.getElem?_eq_getElem hexists]
      rfl
    rw [verdicts] at hv
    rw [event.links]
    rcases List.mem_append.mp hv with hold | hadded
    · obtain ⟨halerts, status, hstatus, hne⟩ := h v hold
      refine ⟨halerts, ?_⟩
      by_cases hsame : row.eventId = v.eventId
      · exact ⟨newStatus, hsame ▸ hconcluded, hnew⟩
      · exact ⟨status, by rw [hevents, List.getElem?_modify_ne _ _ hsame]; exact hstatus, hne⟩
    · obtain rfl := List.mem_singleton.mp hadded
      exact ⟨known, newStatus, hconcluded, hnew⟩

theorem verdicts_invariant
    (hs : (jobSystem rt db jobs).ReachableBy (fun s label => linksUnexamined s label = true) s) :
    VerdictsFinal s.db ∧ (∀ c ∈ s.connections, JobHeld s.db c) ∧
      (jobProgram rt).Exclusive s.connections := by
  refine jobs_invariant ?_ (fun v hv => ?_) hs
  · intro s i a c s' hC hc hG ⟨q, hstatement⟩ hcommit
    exact hG.commit hcommit fun job items p m hpoint => of_commitsWhen hC hc hpoint hstatement
  · cases hv

/--
In every interleaving in which no investigation of an event commits between the lookup of the
event and the commit of a link to it, the alerts of an event with a verdict are those the verdict
is about, and an alert joins only an event that is new or awaits review and that no open
investigation has marked.
-/
theorem alerts_under_verdict
    (hs : (jobSystem rt db jobs).ReachableBy (fun s label => linksUnexamined s label = true) s) :
    (∀ v ∈ s.db.verdicts, v.linked = v.alerts ∧
      alertsOf s.db.db.eventAlerts v.eventId = v.alerts) ∧
    ∀ label s', linksUnexamined s label = true → (jobProgram rt).step label s = some s' →
      ∀ l ∈ s'.db.db.eventAlerts.drop s.db.db.eventAlerts.length, ∀ event,
        s.db.db.events[l.eventId]? = some event → event.status = .pendingReview ∧
          ∀ d ∈ s.connections, JobWrite.markEvent l.eventId ∉ d.log := by
  obtain ⟨hfinal, hheld, hexclusive⟩ := verdicts_invariant hs
  refine ⟨fun v hv => ⟨verdict_linked hs.reachable v hv, (hfinal v hv).1⟩, ?_⟩
  rintro ⟨i, a⟩ s' hguard hstep l hl event hevent
  have hnone {links : Rows EventAlert} (h : l ∈ links.drop links.length) : False := by
    rw [List.drop_length] at h
    cases h
  rcases committed_of_step hheld hstep with hsame | ⟨c, q, hc, hstatement, hcommit⟩
  · exact (hnone (hsame ▸ hl)).elim
  generalize s'.db = store' at hcommit hl
  cases hcommit with
  | nothing => exact (hnone hl).elim
  | concluded _ _ _ _ event _ => exact (hnone (event.links ▸ hl)).elim
  | @placed job items p m _ point log known _ link _ =>
    rw [link.links, List.drop_left] at hl
    obtain rfl := List.mem_singleton.mp hl
    dsimp only at hevent ⊢
    cases htarget : p.target with
    | none =>
      rw [Placement.eventId, htarget, Option.getD_none] at hevent
      exact absurd (Rows.lt_of_getElem? hevent) (lt_irrefl _)
    | some e =>
      rw [Placement.eventId, htarget, Option.getD_some] at hevent ⊢
      have hawaits := known.awaits e htarget (of_commitsWhen hguard hc point hstatement)
      rw [hevent] at hawaits
      refine ⟨Option.some.inj hawaits, fun d hd hmark => ?_⟩
      obtain ⟨j, hj⟩ := List.mem_iff_getElem?.mp hd
      by_cases hji : j = i
      · obtain rfl : c = d := Option.some.inj (hc.symm.trans (hji ▸ hj))
        rw [log, Placement.log, Placement.inserted, htarget] at hmark
        simp at hmark
      · refine hexclusive i j c d hc hj (Ne.symm hji) (a := .event e) ?_ ?_
        · rw [log]
          exact event_mem_locked_placing htarget
        · exact List.mem_filterMap.mpr ⟨_, hmark, rfl⟩

end

def confirmedAttack : AgentLoopResult where
  conclusion := {
    verdict := .attackConfirmed
    confidence := 1
    riskLevel := .high
    reasoning := "" }
  investigationStatus := .completed

def aggregateAndInvestigate : List Job := [.aggregate { limit := 10 }, .investigate { limit := 10 }]

/--
The aggregation finds the event before the investigation marks it, and updates it when the
investigation has committed.
-/
def lateLinkLabels : List (ℕ × JobAnswer) :=
  [(0, .now 1), (0, .now 2), (0, .now 3), (1, .now 4), (1, .now 5), (1, .now 6), (1, .now 7),
    (1, .verdict 8 confirmedAttack), (1, .now 9), (0, .now 10), (0, .now 11), (0, .now 12),
    (0, .now 13)]

def lateLink : Shared JobStore JobWrite JobPoint :=
  ((jobSystem (sampleRuntime .increasing sampleDigests) oneQueuedAlert aggregateAndInvestigate).run
    lateLinkLabels (jobInit oneQueuedAlert aggregateAndInvestigate)).getD
    (jobInit oneQueuedAlert aggregateAndInvestigate)

/-- An alert joins an event whose verdict was reached without it. -/
theorem alert_joins_after_verdict :
    ∃ s, (jobSystem (sampleRuntime .increasing sampleDigests) oneQueuedAlert
        aggregateAndInvestigate).Reachable s ∧
      s.db.verdicts = [{ eventId := 0, alerts := [0], linked := [0] }] ∧
      alertsOf s.db.db.eventAlerts 0 = [0, 1] ∧
      s.db.db.events.map (·.status) = [.concluded] := by
  have hrun : ((jobSystem (sampleRuntime .increasing sampleDigests) oneQueuedAlert
      aggregateAndInvestigate).run lateLinkLabels
        (jobInit oneQueuedAlert aggregateAndInvestigate)).isSome ∧
      lateLink.db.verdicts = [{ eventId := 0, alerts := [0], linked := [0] }] ∧
      alertsOf lateLink.db.db.eventAlerts 0 = [0, 1] ∧
      lateLink.db.db.events.map (·.status) = [.concluded] := by decide +kernel
  exact ⟨lateLink, System.reachable_of_run (System.run_getD hrun.1), hrun.2⟩

/-- The aggregation looks the event up when the investigation has committed. -/
def newEventLabels : List (ℕ × JobAnswer) :=
  [(1, .now 1), (1, .now 2), (1, .now 3), (1, .now 4), (1, .verdict 5 confirmedAttack), (1, .now 6),
    (0, .now 7), (0, .now 8), (0, .now 9), (0, .now 10), (0, .now 11), (0, .now 12), (0, .now 13),
    (0, .now 14)]

def newEventForAlert : Shared JobStore JobWrite JobPoint :=
  ((jobSystem (sampleRuntime .increasing sampleDigests) oneQueuedAlert
    aggregateAndInvestigate).runIf linksUnexamined newEventLabels
    (jobInit oneQueuedAlert aggregateAndInvestigate)).getD
    (jobInit oneQueuedAlert aggregateAndInvestigate)

theorem alerts_under_verdict_new_event :
    ((∀ v ∈ newEventForAlert.db.verdicts, v.linked = v.alerts ∧
      alertsOf newEventForAlert.db.db.eventAlerts v.eventId = v.alerts) ∧
    ∀ label s', linksUnexamined newEventForAlert label = true →
      (jobProgram (sampleRuntime .increasing sampleDigests)).step label newEventForAlert = some s' →
      ∀ l ∈ s'.db.db.eventAlerts.drop newEventForAlert.db.db.eventAlerts.length, ∀ event,
        newEventForAlert.db.db.events[l.eventId]? = some event → event.status = .pendingReview ∧
          ∀ d ∈ newEventForAlert.connections, JobWrite.markEvent l.eventId ∉ d.log) ∧
    newEventForAlert.db.db.events.map (·.status) = [.concluded, .pendingReview] ∧
    alertsOf newEventForAlert.db.db.eventAlerts 1 = [1] := by
  have hrun : ((jobSystem (sampleRuntime .increasing sampleDigests) oneQueuedAlert
      aggregateAndInvestigate).runIf linksUnexamined newEventLabels
        (jobInit oneQueuedAlert aggregateAndInvestigate)).isSome ∧
      newEventForAlert.db.db.events.map (·.status) = [.concluded, .pendingReview] ∧
      alertsOf newEventForAlert.db.db.eventAlerts 1 = [1] := by decide +kernel
  exact ⟨@alerts_under_verdict (sampleRuntime .increasing sampleDigests) oneQueuedAlert
    aggregateAndInvestigate newEventForAlert
    (System.ReachableBy.runIf .init (System.runIf_getD hrun.1)), hrun.2⟩

end Minsight

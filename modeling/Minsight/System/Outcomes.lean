import Minsight.System.Simulation

/-! # How investigations end

An investigation that is committed has one conclusion, whose verdict decides the status of
the investigation and of its event, and no earlier request about the event is still sent.
-/

namespace Minsight

open Tx Session Docket

/--
No event is being investigated, no investigation is running, and every investigation has
exactly one conclusion.
-/
structure AllEnded (db : Db) : Prop where
  events : ∀ event ∈ db.events, event.status ≠ .investigating
  investigations : ∀ inv ∈ db.investigations, inv.status ≠ .running
  conclusions : db.conclusions.map (·.investigationId) = List.range db.investigations.length

def InvestigationVerdict.Concludes (v : InvestigationVerdict) : Prop :=
  v = .attackConfirmed ∨ v = .likelyFalsePositive

/-- The conclusion of an investigation, its status, its event's status and the requests agree. -/
structure OutcomeConsistent (db : Db) (e i : ℕ) (event : Event) (inv : Investigation)
    (c : InvestigationConclusion) : Prop where
  eventRow : db.events[e]? = some event
  investigationRow : db.investigations[i]? = some inv
  eventId : inv.eventId = e
  conclusion : db.conclusions.filter (fun c => c.investigationId == i) = [c]
  concludes : c.verdict.Concludes ↔ event.status = .concluded ∧ inv.status = .completed
  asks : ¬ c.verdict.Concludes ↔ event.status = .humanPending ∧ inv.status = .needsHuman
  requests : ∀ r ∈ db.requests, r.eventId = e → r.status = .sent → r.investigationId = i

theorem ended_iff_allEnded {db : Db} {t : Time} : (db.docket t).Ended ↔ AllEnded db := by
  have hverdicts : (db.docket t).verdicts.map Prod.fst = db.conclusions.map (·.investigationId) := by
    simp [Db.docket]
  have hlength : (db.docket t).investigations.length = db.investigations.length := by
    simp [Db.docket]
  constructor
  · intro h
    refine ⟨fun event he => ?_, fun inv hi => ?_, ?_⟩
    · exact h.events _ (List.mem_map_of_mem he)
    · exact h.investigations _ (List.mem_map_of_mem hi)
    · rw [← hverdicts, h.verdicts, hlength]
  · intro h
    refine ⟨fun s hs => ?_, fun core hcore => ?_, ?_⟩
    · obtain ⟨event, he, rfl⟩ := List.mem_map.mp hs
      exact h.events event he
    · obtain ⟨inv, hi, rfl⟩ := List.mem_map.mp hcore
      exact h.investigations inv hi
    · rw [hverdicts, h.conclusions, hlength]

theorem statuses_iff {v : InvestigationVerdict} {event : EventStatus} {inv : InvestigationStatus}
    (hevent : event = verdictEventStatus v)
    (hinv : inv = if verdictEventStatus v = .humanPending then .needsHuman else .completed) :
    (v.Concludes ↔ event = .concluded ∧ inv = .completed) ∧
      (¬ v.Concludes ↔ event = .humanPending ∧ inv = .needsHuman) := by
  subst hevent hinv
  cases v <;> simp [verdictEventStatus, InvestigationVerdict.Concludes]

/-- A request that is still sent after the obsolete ones of its event are cancelled. -/
theorem sent_of_cancelObsoleteForEvent {e i : ℕ} {s : EventStatus} {r : HumanReviewRequest}
    (hevent : (cancelObsoleteForEvent e i s r).eventId = e)
    (hsent : (cancelObsoleteForEvent e i s r).status = .sent) :
    (cancelObsoleteForEvent e i s r).investigationId = i := by
  unfold cancelObsoleteForEvent at hevent hsent ⊢
  split at hsent
  · cases hsent
  · rename_i hkept
    rw [if_neg hkept] at hevent ⊢
    by_contra hne
    exact hkept ⟨hevent, hsent, .inr hne⟩

/-- Recording the outcome of a new investigation makes everything about it agree. -/
theorem recordOutcome_consistent {db db' : Db} {config : InvestigationConfig} {e : ℕ} {s f : Time}
    {result : AgentLoopResult} (hended : AllEnded db) (hevent : e < db.events.length)
    (hresult : CompletedOrHuman result)
    (hfiles : db'.files = ((db.addInvestigation (newInvestigation config e s)).setEventStatus e
      .investigating).files) :
    ∃ event inv c, OutcomeConsistent (recordOutcome db.investigations.length e f result db') e
      db.investigations.length event inv c := by
  simp only [Db.docket, Docket.mk.injEq, Db.setEventStatus, Db.addInvestigation] at hfiles
  obtain ⟨hevents, hinvs, hverdicts, -⟩ := hfiles
  have hlength : db'.events.length = db.events.length := by
    simpa using congrArg List.length hevents
  obtain ⟨event₀, hevent₀⟩ : ∃ event₀, db'.events[e]? = some event₀ :=
    ⟨_, List.getElem?_eq_getElem (hlength ▸ hevent)⟩
  obtain ⟨inv₀, hinv₀, hcore⟩ : ∃ inv₀, db'.investigations[db.investigations.length]? = some inv₀ ∧
      inv₀.core = (newInvestigation config e s).core := by
    have hrow := congrArg (·[db.investigations.length]?) hinvs
    simpa using hrow
  have hids : db'.conclusions.map (·.investigationId) = List.range db.investigations.length := by
    have h := congrArg (List.map Prod.fst) hverdicts
    simp only [List.map_map] at h
    exact h.trans hended.conclusions
  have hnone : db'.conclusions.filter
      (fun c => c.investigationId == db.investigations.length) = [] := by
    refine List.filter_eq_nil_iff.mpr fun c hc => ?_
    have hlt : c.investigationId ∈ List.range db.investigations.length :=
      hids ▸ List.mem_map_of_mem hc
    simpa using (List.mem_range.mp hlt).ne
  have hstatuses := statuses_iff (v := result.conclusion.verdict) rfl
    (AgentLoopResult.outcome_complete hresult)
  refine ⟨{ event₀ with status := verdictEventStatus result.conclusion.verdict },
    { inv₀ with status := finalStatus result, finishedAt := some f },
    conclusionRow db.investigations.length result.conclusion result.closureResult,
    ⟨?_, ?_, ?_, ?_, hstatuses.1, hstatuses.2, ?_⟩⟩
  · exact Rows.getElem?_update.mpr (.inl ⟨rfl, event₀, hevent₀, rfl⟩)
  · exact Rows.getElem?_update.mpr (.inl ⟨rfl, inv₀, hinv₀, rfl⟩)
  · exact congrArg InvestigationCore.eventId hcore
  · simp only [recordOutcome, List.filter_append, hnone, List.nil_append]
    simp [conclusionRow]
  · intro r hr hre hsent
    obtain ⟨r₀, -, rfl⟩ := List.mem_map.mp hr
    exact sent_of_cancelObsoleteForEvent hre hsent

/--
In every state the system reaches all investigations have ended with one conclusion, and an
investigation that is committed leaves it so and makes everything about it agree.
-/
theorem investigation_outcomes (rt : Runtime) :
    (∀ w, (system rt {}).Reachable w → AllEnded w.db) ∧
      ∀ config env tie e start w w', AllEnded w.db →
        exec (investigateEvent rt config env tie e) w = (.ok start, w') →
        AllEnded w'.db ∧ ∃ event inv c,
          OutcomeConsistent w'.db e w.db.investigations.length event inv c := by
  constructor
  · intro w hw
    have hinit : Docket.Ended {} := ⟨nofun, nofun, rfl⟩
    exact ended_iff_allEnded.mp (docket_invariant hinit (fun _ _ _ _ _ _ _ hs => hs.ended) hw)
  · intro config env tie e start w w' hended hrun
    obtain ⟨s, f, result, db', -, -, -, hresult, hfiles, hevent, hdb⟩ := investigateEvent_ok hrun
    constructor
    · exact ended_iff_allEnded.mp ((investigateEvent_step hrun).ended (ended_iff_allEnded.mpr hended))
    · rw [hdb]
      exact recordOutcome_consistent hended hevent hresult hfiles

/-- The state in which one event waits for its investigation. -/
def pendingWorld : World :=
  ((system (sampleRuntime .increasing []) {}).run (investigatedRun.take 4) {}).getD {}

/-- The investigation of the event, whose model confirms the attack at once. -/
def attackInvestigation : InvestigationEnv where
  startedAt := hours 3
  agent := { chat := fun _ _ => .ok (submits .attackConfirmed none), clock := fun _ => hours 3 }
  finishedAt := hours 3

theorem investigation_outcomes_attack :
    ∃ start w', exec (investigateEvent (sampleRuntime .increasing []) {} attackInvestigation id 0)
        pendingWorld = (.ok start, w') ∧
      AllEnded w'.db ∧ ∃ event inv c, OutcomeConsistent w'.db 0 0 event inv c := by
  have hrun : (system (sampleRuntime .increasing []) {}).run (investigatedRun.take 4) {} =
      some pendingWorld := rfl
  have hreturned : (returned (investigateEvent (sampleRuntime .increasing []) {} attackInvestigation
      id 0) pendingWorld).isSome = true := by decide +kernel
  obtain ⟨start, hstart⟩ := Option.isSome_iff_exists.mp hreturned
  have hexec := exec_of_returned hstart
  obtain ⟨hreachable, hcommitted⟩ := investigation_outcomes (sampleRuntime .increasing [])
  have hended := hreachable pendingWorld (System.reachable_of_run hrun)
  have hfirst : pendingWorld.db.investigations.length = 0 := by decide +kernel
  have houtcome := hcommitted {} attackInvestigation id 0 start pendingWorld _ hended hexec
  rw [hfirst] at houtcome
  exact ⟨start, _, hexec, houtcome⟩

end Minsight

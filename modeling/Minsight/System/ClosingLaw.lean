import Minsight.System.Simulation

/-! # How events are closed -/

namespace Minsight

open Tx Session Docket

variable {rt : Runtime}

/--
The event's latest investigation is completed with a verdict that can be settled and has its
case; when dispositions must be confirmed, none of its dispositions is still a suggestion.
-/
def IsSettled (confirm : Bool) (db : Db) (e : ℕ) : Prop :=
  ∃ i inv conclusion, IsLatestInvestigation db e i ∧ db.investigations[i]? = some inv ∧
    inv.status = .completed ∧
    db.conclusions.find? (fun c => c.investigationId == i) = some conclusion ∧
    (conclusion.verdict = .attackConfirmed ∨ conclusion.verdict = .likelyFalsePositive) ∧
    (∃ case ∈ db.judgmentCases, case.investigationId = i) ∧
    (confirm = true → ∀ r ∈ db.dispositionRecords, r.investigationId = i → r.status ≠ .suggested)

theorem isSettleable_iff {v : InvestigationVerdict} :
    v.isSettleable = true ↔ v = .attackConfirmed ∨ v = .likelyFalsePositive := by
  cases v <;> simp [InvestigationVerdict.isSettleable]

theorem isSettled_of_settled {confirm : Bool} {w : World} {e : ℕ} (ho : w.docket.Ordered)
    (h : w.docket.Settled confirm e) : IsSettled confirm w.db e := by
  obtain ⟨i, core, v, hlatest, hcompleted, hverdict, hsettleable, hcase, hres⟩ := h
  obtain ⟨inv, hinv, rfl⟩ : ∃ inv, w.db.investigations[i]? = some inv ∧ inv.core = core := by
    simpa [World.docket, Db.docket] using hlatest.row
  obtain ⟨conclusion, hfind, rfl⟩ : ∃ c, w.db.conclusions.find?
      (fun c => c.investigationId == i) = some c ∧ c.verdict = v := by
    simpa [World.docket, Db.docket, verdictOf, List.find?_map, Function.comp_def] using hverdict
  refine ⟨i, inv, conclusion, isLatestInvestigation_of_latestOf ho hlatest, hinv, hcompleted,
    hfind, isSettleable_iff.mp hsettleable, ?_, fun hc r hr hi => ?_⟩
  · rw [World.docket, casesCount_eq, List.countP_pos_iff] at hcase
    simpa using hcase
  · exact hres hc _ (List.mem_map_of_mem hr) hi

theorem Label.acts_closed {l : Label} {confirm : Bool} (h : l.acts (.closed confirm)) :
    ∃ config env limit useLock, l = .settle config env limit useLock := by
  cases l with
  | settle config env limit useLock => exact ⟨config, env, limit, useLock, rfl⟩
  | review => rcases h with h | h <;> cases h
  | healthCheck => rcases h with h | h <;> cases h
  | configure => exact h.elim
  | ingest => exact h.elim
  | triage => exact h.elim
  | auditSample => exact h.elim
  | aggregate => cases h
  | investigate => cases h
  | reply => cases h
  | cancel => cases h
  | confirm => cases h
  | reject => cases h

theorem oneCase_of_reachable {C : World → Label → Prop} {w : World}
    (h : (system rt {}).ReachableBy C w) : w.docket.OneCase :=
  docket_invariant (fun _ => Nat.zero_le 1) (fun _ _ _ _ _ _ _ => Step.oneCase) h

/--
While the clock increases, every investigation has at most one case, and an event is closed
only by a settlement run and only when it is settled.
-/
theorem closing_law (hclock : rt.clock = .increasing) {w : World}
    (h : (system rt {}).Reachable w) :
    (∀ i, w.db.judgmentCases.countP (fun c => c.investigationId == i) ≤ 1) ∧
      ∀ l w', (system rt {}).step l w = some w' → ∀ e,
        (w.db.events[e]?).map (·.status) ≠ some .closed →
        (w'.db.events[e]?).map (·.status) = some .closed →
        ∃ config env limit useLock, l = .settle config env limit useLock ∧
          IsSettled config.requireDispositionConfirm w'.db e := by
  refine ⟨fun i => ?_, fun l w' hstep e hopen hclosed => ?_⟩
  · rw [← casesCount_eq w.db w.out.clock]
    exact oneCase_of_reachable h i
  · have hsteps : Simulates rt l.acts w w' := by
      obtain rfl := Option.some.inj hstep
      exact perform_simulates l w
    have hnow : w'.docket.events[e]? = some .closed := by
      simpa [World.docket, Db.docket] using hclosed
    have hbefore : w.docket.events[e]? ≠ some .closed := by
      simpa [World.docket, Db.docket] using hopen
    by_cases hsettle : ∃ confirm, l.acts (.closed confirm)
    · obtain ⟨confirm, hacts⟩ := hsettle
      obtain ⟨config, env, limit, useLock, rfl⟩ := Label.acts_closed hacts
      have hcloses : ClosesSettled config.requireDispositionConfirm w.docket w'.docket := by
        refine Steps.closesSettled (hclock ▸ hsteps) (fun a ha => ha) ?_
        exact lawful_of_reachable hclock h
      have hsettled := (hcloses.closes e hnow).resolve_left hbefore
      have hreach : (system rt {}).Reachable w' := h.step trivial hstep
      exact ⟨config, env, limit, useLock, rfl,
        isSettled_of_settled (lawful_of_reachable hclock hreach).ordered hsettled⟩
    · exact absurd (hsteps.closed_of_closed (not_exists.mp hsettle) hnow) hbefore

def concludedRun : List Label :=
  [.oneSource, .ingestAll 0 [sampleAlert "a-1"], .triageAll (hours 1), .aggregateAll (hours 2),
    .investigateAll (hours 3) (.ok (submits .attackConfirmed none))]

def concludedWorld : World :=
  ((system (sampleRuntime .increasing []) {}).run concludedRun {}).getD {}

theorem closing_law_concluded :
    ∃ w', (system (sampleRuntime .increasing []) {}).step .settleAll concludedWorld = some w' ∧
      IsSettled false w'.db 0 := by
  have hrun : (system (sampleRuntime .increasing []) {}).run concludedRun {} =
    some concludedWorld := rfl
  refine ⟨_, rfl, ?_⟩
  obtain ⟨config, env, limit, useLock, hl, hsettled⟩ :=
    (closing_law rfl (System.reachable_of_run hrun)).2 .settleAll _ rfl 0 (by decide +kernel)
      (by decide +kernel)
  obtain ⟨rfl, -⟩ : {} = config ∧ _ := by simpa [Label.settleAll] using hl
  exact hsettled

end Minsight

import Minsight.Aggregation.Statistics
import Minsight.Concurrency.Knowledge
import Minsight.Triage.Lifecycle

/-! # Events, links and counters under concurrent aggregation

Two aggregations of one key that overlap can both create its event, or both add one to the count
that they have read. As long as no aggregation of a key commits between the lookup and the commit
of another one, neither happens; that an alert has one link needs no such condition.
-/

namespace Minsight

open Program

/-- A link is committed only if no alert was linked under its key since the lookup. -/
def linksUntouched : Shared JobStore JobWrite JobPoint → ℕ × JobAnswer → Bool :=
  commitsWhen untouched

/-- Every alert has at most one link, and every event counts its links. -/
structure LinksCounted (db : Db) : Prop where
  unique : (db.eventAlerts.map (·.alertId)).Nodup
  exist : ∀ l ∈ db.eventAlerts, l.eventId < db.events.length
  counts : ∀ (e : ℕ) (event : Event), db.events[e]? = some event →
    event.alertCount = (alertsOf db.eventAlerts e).length

section

variable {rt : Runtime} {db db' : Db} {jobs : List Job} {s s' : Shared JobStore JobWrite JobPoint}
  {i e : ℕ} {a : JobAnswer} {c : Connection JobWrite JobPoint} {store store' : JobStore}
  {p : Placement} {m : ℤ}

theorem Stage.links_le {status : Option AlertStatus} {results : List TriageResult}
    {links : List EventAlert} {samples : List AuditSample}
    (h : Stage status results links samples) : links.length ≤ 1 := by
  cases h <;> simp

theorem linksCounted_of_aggregated {config : AggregationConfig} (h : Aggregated rt config db)
    (hstaged : AlertsStaged db) : LinksCounted db where
  unique := by
    rw [List.nodup_iff_count_le_one]
    intro i
    rw [List.count, List.countP_map, List.countP_eq_length_filter]
    exact (hstaged i).links_le
  exist := fun l hl => (h.links l hl).1
  counts := fun e event hevent => by
    rw [(h.stats e event hevent).count, alertsOf, List.length_map, List.countP_eq_length_filter]

theorem length_alertsOf_append {links : Rows EventAlert} {l : EventAlert} (h : l.eventId = e) :
    (alertsOf (links ++ [l]) e).length = (alertsOf links e).length + 1 := by
  simp [alertsOf, h]

theorem LinksCounted.nil_of_length_le (h : LinksCounted db) (he : db.events.length ≤ e) :
    alertsOf db.eventAlerts e = [] := by
  rw [alertsOf, List.map_eq_nil_iff, List.filter_eq_nil_iff]
  intro l hl hle
  have hlt := h.exist l hl
  have hle' : l.eventId = e := beq_iff_eq.mp hle
  omega

theorem LinkAdded.count (h : LinkAdded p m db db') (hdb : LinksCounted db)
    (hp : PlacementKnown db p) (huntouched : untouched db p = true) :
    (db'.events[p.eventId db]?).map (·.alertCount) =
      some ((alertsOf db.eventAlerts (p.eventId db)).length + 1) := by
  cases htarget : p.target with
  | some e =>
    obtain ⟨event, hevent, hcount⟩ := Option.map_eq_some_iff.mp (hp.counted e htarget huntouched)
    rw [h.events, htarget, Option.elim_some, Placement.eventId, htarget, Option.getD_some,
      List.getElem?_modify_eq, hevent]
    refine congrArg some ((alertCount_flushStats event).trans ?_)
    rw [← hcount, hdb.counts e event hevent]
  | none =>
    rw [h.events, htarget, Option.elim_none, Placement.eventId, htarget, Option.getD_none,
      List.getElem?_concat_length, hdb.nil_of_length_le le_rfl]
    refine congrArg some ?_
    have hzero := (hp.created htarget).2.2
    simp [Placement.updated, updateEventStats, hzero]

theorem LinksCounted.commit (h : LinksCounted store.db) (hcommit : Committed store c store')
    (huntouched : ∀ job items p m, c.point = .placing job items p (.commit m) →
      untouched store.db p = true) : LinksCounted store'.db := by
  cases hcommit with
  | nothing => exact h
  | concluded _ _ _ _ event _ =>
    obtain ⟨status, -, hevents⟩ := event.events
    refine ⟨event.links ▸ h.unique, ?_, ?_⟩
    · rw [event.links, hevents, List.length_modify]
      exact h.exist
    · intro e row hrow
      have hcolumn := event.column (g := (·.alertCount)) (fun _ _ => rfl) e
      rw [hrow] at hcolumn
      obtain ⟨old, hold, hcount⟩ := Option.map_eq_some_iff.mp hcolumn.symm
      rw [event.links]
      exact hcount.symm.trans (h.counts e old hold)
  | @placed job items p m _ point _ known unlinked link _ =>
    refine ⟨?_, ?_, ?_⟩
    · rw [link.links, List.map_append, List.nodup_append]
      refine ⟨h.unique, List.nodup_singleton _, ?_⟩
      intro x hx y hy
      obtain ⟨l, hl, rfl⟩ := List.mem_map.mp hx
      obtain rfl := List.mem_singleton.mp hy
      exact unlinked l hl
    · rw [link.links]
      intro l hl
      rcases List.mem_append.mp hl with hold | hnew
      · exact (h.exist l hold).trans_le link.length_le
      · obtain rfl := List.mem_singleton.mp hnew
        obtain ⟨row, hrow, -⟩ := Option.map_eq_some_iff.mp (link.key known)
        exact Rows.lt_of_getElem? hrow
    · intro e row hrow
      rw [link.links]
      by_cases he : p.eventId store.db = e
      · subst he
        have hcount := link.count h known (huntouched job items p m point)
        rw [hrow] at hcount
        rw [length_alertsOf_append rfl]
        exact Option.some.inj hcount
      · rw [alertsOf_append he]
        exact h.counts e row (link.other he ▸ hrow)

theorem counters_invariant (hdb : LinksCounted db)
    (hs : (jobSystem rt db jobs).ReachableBy (fun s label => linksUntouched s label = true) s) :
    LinksCounted s.db.db ∧ (∀ c ∈ s.connections, JobHeld s.db c) ∧
      (jobProgram rt).Exclusive s.connections := by
  refine jobs_invariant (G := fun store => LinksCounted store.db) ?_ hdb hs
  intro s i a c s' hC hc hG ⟨q, hstatement⟩ hcommit
  exact hG.commit hcommit fun job items p m hpoint => of_commitsWhen hC hc hpoint hstatement

/--
In every interleaving in which no aggregation of a key commits between the lookup and the commit
of another one of that key, an alert has at most one link, every event counts its links, and no
event is created while another one of its key awaits review.
-/
theorem concurrent_aggregation (hdb : LinksCounted db)
    (hs : (jobSystem rt db jobs).ReachableBy (fun s label => linksUntouched s label = true) s) :
    LinksCounted s.db.db ∧ ∀ label s', linksUntouched s label = true →
      (jobProgram rt).step label s = some s' →
      ∀ event ∈ s'.db.db.events.drop s.db.db.events.length, ∀ other ∈ s.db.db.events,
        other.eventKey = event.eventKey → other.status ≠ .pendingReview := by
  obtain ⟨hcounted, hheld, -⟩ := counters_invariant hdb hs
  refine ⟨hcounted, ?_⟩
  rintro ⟨i, a⟩ s' hguard hstep event hevent
  have hnone {events : Rows Event} (h : event ∈ events.drop events.length) : False := by
    rw [List.drop_length] at h
    cases h
  rcases committed_of_step hheld hstep with hsame | ⟨c, q, hc, hstatement, hcommit⟩
  · exact (hnone (hsame ▸ hevent)).elim
  generalize s'.db = store' at hcommit hevent
  cases hcommit with
  | nothing => exact (hnone hevent).elim
  | concluded _ _ _ _ concluded _ =>
    obtain ⟨status, -, hevents⟩ := concluded.events
    rw [hevents, List.drop_eq_nil_of_le (List.length_modify _ _ _).le] at hevent
    cases hevent
  | @placed job items p m _ point _ known _ link _ =>
    have huntouched := of_commitsWhen hguard hc point hstatement
    rw [link.events] at hevent
    cases htarget : p.target with
    | some e =>
      rw [htarget, Option.elim_some,
        List.drop_eq_nil_of_le (List.length_modify _ _ _).le] at hevent
      cases hevent
    | none =>
      rw [htarget, Option.elim_none, List.drop_left] at hevent
      obtain rfl := List.mem_singleton.mp hevent
      intro other hother hkey
      exact known.alone htarget huntouched other hother
        (hkey.trans (known.created htarget).1)

end

/-- A scheduled run and a health check's run, whose queries break ties differently. -/
def twoAggregations : List Job :=
  [.aggregate { limit := 10 }, .aggregate { tie := fun i => 10 - i, limit := 10 }]

def bothCreateLabels : List (ℕ × JobAnswer) :=
  [(0, .now 1), (1, .now 1), (0, .now 2), (1, .now 2), (0, .now 3), (0, .now 3), (0, .now 3),
    (0, .now 3), (0, .now 3), (0, .now 3), (1, .now 4), (1, .now 4), (1, .now 4), (1, .now 4),
    (1, .now 4), (1, .now 4)]

def bothCreate : Shared JobStore JobWrite JobPoint :=
  ((jobSystem (sampleRuntime .increasing sampleDigests) twoQueuedAlerts twoAggregations).run
    bothCreateLabels (jobInit twoQueuedAlerts twoAggregations)).getD
    (jobInit twoQueuedAlerts twoAggregations)

/-- Both runs read the count of the event before either of them adds to it. -/
def bothCountLabels : List (ℕ × JobAnswer) :=
  [(0, .now 1), (1, .now 1), (0, .now 2), (1, .now 2), (0, .now 3), (0, .now 3), (0, .now 3),
    (0, .now 3), (0, .now 3), (1, .now 4), (1, .now 4), (1, .now 4), (1, .now 4), (1, .now 4)]

def bothCount : Shared JobStore JobWrite JobPoint :=
  ((jobSystem (sampleRuntime .increasing sampleDigests) twoMoreAlerts twoAggregations).run
    bothCountLabels (jobInit twoMoreAlerts twoAggregations)).getD
    (jobInit twoMoreAlerts twoAggregations)

/-- Two events of one key await review, and an event with three links counts two. -/
theorem aggregations_overlap :
    (∃ s, (jobSystem (sampleRuntime .increasing sampleDigests) twoQueuedAlerts
        twoAggregations).Reachable s ∧
      s.db.db.events.map (fun e => (e.eventKey, e.status)) =
        [("767ec2b83b4866005499a20e4586ded1", .pendingReview),
          ("767ec2b83b4866005499a20e4586ded1", .pendingReview)]) ∧
    ∃ s, (jobSystem (sampleRuntime .increasing sampleDigests) twoMoreAlerts
        twoAggregations).Reachable s ∧
      s.db.db.events.map (·.alertCount) = [2] ∧ alertsOf s.db.db.eventAlerts 0 = [0, 1, 2] := by
  have hcreate : ((jobSystem (sampleRuntime .increasing sampleDigests) twoQueuedAlerts
      twoAggregations).run bothCreateLabels (jobInit twoQueuedAlerts twoAggregations)).isSome ∧
      bothCreate.db.db.events.map (fun e => (e.eventKey, e.status)) =
        [("767ec2b83b4866005499a20e4586ded1", .pendingReview),
          ("767ec2b83b4866005499a20e4586ded1", .pendingReview)] := by decide +kernel
  have hcount : ((jobSystem (sampleRuntime .increasing sampleDigests) twoMoreAlerts
      twoAggregations).run bothCountLabels (jobInit twoMoreAlerts twoAggregations)).isSome ∧
      bothCount.db.db.events.map (·.alertCount) = [2] ∧
      alertsOf bothCount.db.db.eventAlerts 0 = [0, 1, 2] := by decide +kernel
  exact ⟨⟨bothCreate, System.reachable_of_run (System.run_getD hcreate.1), hcreate.2⟩,
    bothCount, System.reachable_of_run (System.run_getD hcount.1), hcount.2⟩

/-- The second run looks the event up when the first one has created it. -/
def oneAfterAnotherLabels : List (ℕ × JobAnswer) :=
  [(0, .now 1), (1, .now 1), (0, .now 2), (0, .now 3), (0, .now 3), (0, .now 3), (0, .now 3),
    (0, .now 3), (0, .now 3), (1, .now 4), (1, .now 4), (1, .now 4), (1, .now 4), (1, .now 4),
    (1, .now 4)]

def oneAfterAnother : Shared JobStore JobWrite JobPoint :=
  ((jobSystem (sampleRuntime .increasing sampleDigests) twoQueuedAlerts twoAggregations).runIf
    linksUntouched oneAfterAnotherLabels (jobInit twoQueuedAlerts twoAggregations)).getD
    (jobInit twoQueuedAlerts twoAggregations)

theorem linksCounted_twoQueuedAlerts : LinksCounted twoQueuedAlerts where
  unique := List.nodup_nil
  exist := fun _ h => (List.not_mem_nil h).elim
  counts := fun _ _ h => by cases h

theorem concurrent_aggregation_two_alerts :
    (LinksCounted oneAfterAnother.db.db ∧ ∀ label s', linksUntouched oneAfterAnother label = true →
      (jobProgram (sampleRuntime .increasing sampleDigests)).step label oneAfterAnother = some s' →
      ∀ event ∈ s'.db.db.events.drop oneAfterAnother.db.db.events.length,
        ∀ other ∈ oneAfterAnother.db.db.events,
          other.eventKey = event.eventKey → other.status ≠ .pendingReview) ∧
    oneAfterAnother.db.db.events.map (·.alertCount) = [2] ∧
    alertsOf oneAfterAnother.db.db.eventAlerts 0 = [0, 1] := by
  have hrun : ((jobSystem (sampleRuntime .increasing sampleDigests) twoQueuedAlerts
      twoAggregations).runIf linksUntouched oneAfterAnotherLabels
        (jobInit twoQueuedAlerts twoAggregations)).isSome ∧
      oneAfterAnother.db.db.events.map (·.alertCount) = [2] ∧
      alertsOf oneAfterAnother.db.db.eventAlerts 0 = [0, 1] := by decide +kernel
  exact ⟨@concurrent_aggregation (sampleRuntime .increasing sampleDigests) twoQueuedAlerts
    twoAggregations oneAfterAnother linksCounted_twoQueuedAlerts
    (System.ReachableBy.runIf .init (System.runIf_getD hrun.1)), hrun.2⟩

end Minsight

import Minsight.Aggregation.Service
import Minsight.Ingestion.Service
import Minsight.Review.AuditSampler
import Minsight.Triage.Effects

/-! # The lifecycle of an alert

The status of an alert and the rows that refer to it move together. An alert is new until
it has a triage result, and the route of that result decides whether the alert is archived
or waits to be linked to an event.
-/

namespace Minsight

open Tx Session

/-- The status of an alert, if there is one under the key. -/
def statusOf (alerts : Rows Alert) (alertId : ℕ) : Option AlertStatus :=
  (alerts[alertId]?).map (·.status)

def resultsOf (results : Rows TriageResult) (alertId : ℕ) : List TriageResult :=
  results.filter fun t => t.alertId == alertId

def linksOf (links : Rows EventAlert) (alertId : ℕ) : List EventAlert :=
  links.filter fun l => l.alertId == alertId

def samplesOf (samples : Rows AuditSample) (alertId : ℕ) : List AuditSample :=
  samples.filter fun s => s.alertId == some alertId

structure TriageResult.FlagsAgree (t : TriageResult) : Prop where
  whitelist : t.whitelistRuleId.isSome = true ↔ t.routeDecision = .archiveWhitelist
  dedup : t.dedupHit = true ↔ t.routeDecision = .archiveDedup

/-- The number of audit samples of an alert with a route. -/
def RouteDecision.samples (route : RouteDecision) : ℕ := if route = .sampleAudit then 1 else 0

/-- What an alert can be: its status, its triage results, its links and its audit samples. -/
inductive Stage : Option AlertStatus → List TriageResult → List EventAlert → List AuditSample →
    Prop
  | absent : Stage none [] [] []
  | new : Stage (some .new) [] [] []
  | archived {t : TriageResult} {samples : List AuditSample} (flags : t.FlagsAgree)
      (route : t.routeDecision.isArchive = true)
      (sampled : samples.length = t.routeDecision.samples) : Stage (some .archived) [t] [] samples
  | triaged {t : TriageResult} (flags : t.FlagsAgree) (route : t.routeDecision.isQueue = true) :
      Stage (some .triaged) [t] [] []
  | linked {t : TriageResult} {l : EventAlert} (flags : t.FlagsAgree)
      (route : t.routeDecision.isQueue = true) : Stage (some .eventLinked) [t] [l] []

/-- Every alert is at one of the stages, and nothing refers to an alert there is not. -/
def AlertsStaged (db : Db) : Prop :=
  ∀ i, Stage (statusOf db.alerts i) (resultsOf db.triageResults i) (linksOf db.eventAlerts i)
    (samplesOf db.auditSamples i)

theorem alertsStaged_empty : AlertsStaged {} := fun _ => .absent

def Db.intake (db : Db) : Rows Alert × Rows TriageResult × Rows EventAlert × Rows AuditSample :=
  (db.alerts, db.triageResults, db.eventAlerts, db.auditSamples)

theorem AlertsStaged.congr {db db' : Db} (h : AlertsStaged db) (hi : db'.intake = db.intake) :
    AlertsStaged db' := by
  simp only [Db.intake, Prod.mk.injEq] at hi
  obtain ⟨ha, ht, hl, hs⟩ := hi
  intro i
  simpa only [ha, ht, hl, hs] using h i

section

variable {alerts : Rows Alert} {i j : ℕ} {s : Option AlertStatus} {ts : List TriageResult}
  {ls : List EventAlert} {ms : List AuditSample}

theorem statusOf_insert {a : Alert} (hj : j ≠ alerts.length) :
    statusOf (alerts ++ [a]) j = statusOf alerts j := by
  unfold statusOf
  rcases lt_or_gt_of_ne hj with hlt | hgt
  · rw [List.getElem?_append_left hlt]
  · rw [List.getElem?_eq_none (by simp; omega), List.getElem?_eq_none hgt.le]

theorem statusOf_modify_self {f : Alert → Alert} :
    statusOf (alerts.modify i f) i = (alerts[i]?).map fun a => (f a).status := by
  simp [statusOf, Function.comp_def]

theorem statusOf_modify_ne {f : Alert → Alert} (h : i ≠ j) :
    statusOf (alerts.modify i f) j = statusOf alerts j := by
  simp [statusOf, h]

theorem Stage.of_none (h : Stage none ts ls ms) : ts = [] ∧ ls = [] ∧ ms = [] := by
  cases h
  exact ⟨rfl, rfl, rfl⟩

theorem Stage.of_untriaged (h : Stage s [] ls ms) (hs : s.isSome) :
    s = some .new ∧ ls = [] ∧ ms = [] := by
  cases h with
  | absent => simp at hs
  | new => exact ⟨rfl, rfl, rfl⟩

theorem Stage.of_unlinked (h : Stage s ts [] ms)
    (hs : s = some .triaged ∨ s = some .eventLinked) :
    s = some .triaged ∧ ms = [] ∧ ∃ t, ts = [t] ∧ t.FlagsAgree ∧
      t.routeDecision.isQueue = true := by
  cases h with
  | absent => simp at hs
  | new => simp at hs
  | archived => simp at hs
  | triaged flags route => exact ⟨rfl, rfl, _, rfl, flags, route⟩

theorem isArchive_eq_not_isQueue (route : RouteDecision) : route.isArchive = !route.isQueue := by
  cases route <;> rfl

theorem ne_sampleAudit_of_isQueue {route : RouteDecision} (h : route.isQueue = true) :
    route ≠ .sampleAudit := by
  rintro rfl
  simp [RouteDecision.isQueue] at h

theorem samples_of_isQueue {route : RouteDecision} (h : route.isQueue = true) :
    route.samples = 0 :=
  if_neg (ne_sampleAudit_of_isQueue h)

theorem stage_routed {t : TriageResult} (flags : t.FlagsAgree)
    (hs : ms.length = t.routeDecision.samples) :
    Stage (some (routedStatus t.routeDecision)) [t] [] ms := by
  have ha := isArchive_eq_not_isQueue t.routeDecision
  unfold routedStatus
  cases hq : t.routeDecision.isQueue with
  | true =>
    rw [samples_of_isQueue hq, List.length_eq_zero_iff] at hs
    subst hs
    simpa [ha, hq] using Stage.triaged flags hq
  | false => simpa [ha, hq] using Stage.archived flags (by simpa [hq] using ha) hs

end

section

variable {db db' : Db}

theorem AlertsStaged.insert (h : AlertsStaged db) {a : Alert} (ha : a.status = .new) :
    AlertsStaged { db with alerts := db.alerts ++ [a] } := by
  intro i
  have hi := h i
  by_cases he : i = db.alerts.length
  · subst he
    have hnone : statusOf db.alerts db.alerts.length = none := by simp [statusOf]
    rw [hnone] at hi
    obtain ⟨ht, hl, hm⟩ := hi.of_none
    have hnew : statusOf (db.alerts ++ [a]) db.alerts.length = some .new := by
      simp [statusOf, ha]
    simpa only [hnew, ht, hl, hm] using Stage.new
  · simpa only [statusOf_insert he] using hi

theorem AlertsStaged.insertNew {rows : List Alert} (h : AlertsStaged db)
    (hr : ∀ a ∈ rows, a.status = .new) :
    AlertsStaged { db with alerts := insertNew db.alerts rows } := by
  induction rows generalizing db with
  | nil => exact h
  | cons a rows ih =>
    have hrest := fun b hb => hr b (List.mem_cons_of_mem _ hb)
    simp only [Minsight.insertNew, List.foldl_cons]
    split
    · exact ih h hrest
    · exact ih (h.insert (hr a List.mem_cons_self)) hrest

theorem AlertsStaged.triaged {alert : AlertSnapshot} (h : AlertsStaged db)
    (ht : Triaged alert db db') : AlertsStaged db' := by
  obtain ⟨ctx, route, now, hctx, hroute, hsome, hfresh, hdb⟩ := ht
  have hid : ctx.alert.id = alert.id := congrArg AlertSnapshot.id hctx.alert
  have hintake : db'.intake = (recordTriage ctx route now db).intake := by
    have := congrArg Db.intake hdb
    exact this
  refine AlertsStaged.congr (fun i => ?_) hintake
  have hi := h i
  by_cases he : alert.id = i
  · subst he
    have hres : resultsOf db.triageResults alert.id = [] := by
      simpa [resultsOf] using hfresh
    rw [hres] at hi
    obtain ⟨-, hl, hm⟩ := hi.of_untriaged (by simpa [statusOf] using hsome)
    obtain ⟨a, ha⟩ := Option.isSome_iff_exists.mp hsome
    have hresult : resultsOf (recordTriage ctx route now db).triageResults alert.id =
        [triageResultOf ctx route now] := by
      rw [resultsOf] at hres
      simp [recordTriage, resultsOf, hres, triageResultOf, hid]
    have hsamples : (samplesOf (recordTriage ctx route now db).auditSamples alert.id).length =
        route.samples := by
      rw [samplesOf] at hm
      simp only [recordTriage, samplesOf, RouteDecision.samples]
      split <;> simp [hm, hid]
    have flags : (triageResultOf ctx route now).FlagsAgree :=
      ⟨by simpa [triageResultOf, hroute] using hctx.whitelist,
        by simpa [triageResultOf, hroute] using hctx.dedup⟩
    have hstatus : statusOf (recordTriage ctx route now db).alerts alert.id =
        some (routedStatus route) := by
      simp [recordTriage, hid, statusOf_modify_self, ha, routedAlert]
    have hlinks : linksOf (recordTriage ctx route now db).eventAlerts alert.id = [] := hl
    rw [hstatus, hresult, hlinks]
    exact stage_routed flags hsamples
  · have hresults : resultsOf (recordTriage ctx route now db).triageResults i =
        resultsOf db.triageResults i := by
      simp [recordTriage, resultsOf, triageResultOf, hid, he]
    have hsamples : samplesOf (recordTriage ctx route now db).auditSamples i =
        samplesOf db.auditSamples i := by
      simp only [recordTriage, samplesOf]
      split <;> simp [hid, he]
    have hstatus : statusOf (recordTriage ctx route now db).alerts i = statusOf db.alerts i :=
      statusOf_modify_ne (by rwa [hid])
    rw [hstatus, hresults, hsamples]
    exact hi

def Waits (db : Db) (alertId : ℕ) : Prop :=
  statusOf db.alerts alertId = some .triaged ∨ statusOf db.alerts alertId = some .eventLinked

theorem AlertsStaged.link {item : PendingAlert} {eventId : ℕ} {now : Time} {maxSeverity : ℤ}
    (h : AlertsStaged db) (hw : Waits db item.alertId)
    (hl : ∀ l ∈ db.eventAlerts, l.alertId ≠ item.alertId) :
    AlertsStaged (recordLink item eventId now maxSeverity db) := by
  intro i
  have hi := h i
  by_cases he : item.alertId = i
  · subst he
    have hnil : linksOf db.eventAlerts item.alertId = [] := by simpa [linksOf] using hl
    rw [hnil] at hi
    obtain ⟨hs, hm, t, ht, flags, route⟩ := hi.of_unlinked hw
    obtain ⟨a, ha, -⟩ := Option.map_eq_some_iff.mp hs
    simp only [recordLink, statusOf_modify_self, ha, ht, hm, Option.map_some]
    simp only [linksOf, List.filter_append]
    rw [linksOf] at hnil
    simpa [hnil] using Stage.linked flags route
  · have hlinks : linksOf (db.eventAlerts ++ [⟨eventId, item.alertId, now⟩]) i =
        linksOf db.eventAlerts i := by
      simp [linksOf, he]
    simpa only [recordLink, statusOf_modify_ne he, hlinks] using hi

end

end Minsight

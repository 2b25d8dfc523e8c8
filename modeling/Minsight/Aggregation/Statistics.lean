import Minsight.Aggregation.Effects
import Minsight.Foundation.Extrema

/-! # The statistics of an event

What aggregation keeps up to date on an event, one linked alert at a time, is what would be
computed from all its linked alerts at once.
-/

namespace Minsight

open Tx Session

/-- The columns of an alert that aggregation reads; they do not change. -/
structure AlertFacts where
  severity : ℤ
  occurredAt : Time
  hostName : Option String
  userName : Option String
  alertCategory : Option String

def Alert.facts (a : Alert) : AlertFacts where
  severity := a.severity
  occurredAt := a.occurredAt
  hostName := a.hostName
  userName := a.userName
  alertCategory := a.alertCategory

def LinkedTo (db : Db) (e i : ℕ) : Prop := ∃ l ∈ db.eventAlerts, l.eventId = e ∧ l.alertId = i

/-- The alerts linked to an event. -/
def linkedFacts (db : Db) (e : ℕ) : Set AlertFacts :=
  {f | ∃ i, LinkedTo db e i ∧ (db.alerts[i]?).map Alert.facts = some f}

def linkedTriage (db : Db) (e : ℕ) : Set TriageResult :=
  {t | t ∈ db.triageResults ∧ LinkedTo db e t.alertId}

/-- What nothing but aggregation changes on an event; the priority may rise. -/
structure SameStats (event event' : Event) : Prop where
  eventKey : event'.eventKey = event.eventKey
  alertCount : event'.alertCount = event.alertCount
  firstAlertAt : event'.firstAlertAt = event.firstAlertAt
  lastAlertAt : event'.lastAlertAt = event.lastAlertAt
  riskScore : event'.riskScore = event.riskScore
  queuePriority : event.queuePriority ≤ event'.queuePriority
  title : event'.title = event.title
  category : event'.aggregateCategory = event.aggregateCategory
  hostName : event'.aggregateHostName = event.aggregateHostName
  userName : event'.aggregateUserName = event.aggregateUserName

theorem SameStats.refl (event : Event) : SameStats event event :=
  ⟨rfl, rfl, rfl, rfl, rfl, le_rfl, rfl, rfl, rfl, rfl⟩

structure EventStats (rt : Runtime) (config : AggregationConfig) (db : Db) (e : ℕ)
    (event : Event) : Prop where
  count : event.alertCount = db.eventAlerts.countP fun l => l.eventId == e
  first : LeastOf (AlertFacts.occurredAt '' linkedFacts db e) event.firstAlertAt
  last : GreatestOf (AlertFacts.occurredAt '' linkedFacts db e) event.lastAlertAt
  risk : IsGreatest (insert 0 (TriageResult.ruleScore '' linkedTriage db e)) event.riskScore
  priority : ∀ t ∈ linkedTriage db e, routePriority t.routeDecision ≤ event.queuePriority
  title : ∃ severity, GreatestOf (AlertFacts.severity '' linkedFacts db e) severity ∧
    event.title = severity.map (buildEventTitle event.aggregateCategory event.aggregateHostName
      event.aggregateUserName event.alertCount)
  key : ∀ f ∈ linkedFacts db e, ∃ dims, normalizeDimensions rt config f.hostName f.userName
    f.alertCategory f.occurredAt = .ok dims ∧ dims.eventKey = event.eventKey

/-- The tables aggregation works on; every alert has at most one triage result. -/
structure Aggregated (rt : Runtime) (config : AggregationConfig) (db : Db) : Prop where
  triaged : (db.triageResults.map (·.alertId)).Nodup
  links : ∀ l ∈ db.eventAlerts, l.eventId < db.events.length ∧ l.alertId < db.alerts.length ∧
    ∃ t ∈ db.triageResults, t.alertId = l.alertId
  linked : ∀ e, e < db.events.length → ∃ i, LinkedTo db e i
  stats : ∀ (e : ℕ) (event : Event), db.events[e]? = some event → EventStats rt config db e event

structure ReadyItem (db : Db) (item : PendingAlert) : Prop where
  facts : (db.alerts[item.alertId]?).map Alert.facts = some item.alert.facts
  triage : item.triage ∈ db.triageResults
  alertId : item.triage.alertId = item.alertId

section

variable {rt : Runtime} {config : AggregationConfig} {tie : ℕ → ℕ} {item : PendingAlert}
  {db db' : Db} {e i : ℕ} {now : Time} {maxSeverity : ℤ}

theorem linkedTo_recordLink {e' : ℕ} : LinkedTo (recordLink item e now maxSeverity db) e' i ↔
    LinkedTo db e' i ∨ e' = e ∧ i = item.alertId := by
  simp only [LinkedTo, recordLink, List.mem_append, List.mem_singleton]
  constructor
  · rintro ⟨l, hl | rfl, rfl, rfl⟩
    · exact .inl ⟨l, hl, rfl, rfl⟩
    · exact .inr ⟨rfl, rfl⟩
  · rintro (⟨l, hl, rfl, rfl⟩ | ⟨rfl, rfl⟩)
    · exact ⟨l, .inl hl, rfl, rfl⟩
    · exact ⟨_, .inr rfl, rfl, rfl⟩

theorem facts_recordLink : ((recordLink item e now maxSeverity db).alerts[i]?).map Alert.facts =
    (db.alerts[i]?).map Alert.facts := by
  have hfacts : (recordLink item e now maxSeverity db).alerts.map Alert.facts =
      db.alerts.map Alert.facts := Rows.map_update_eq fun _ => rfl
  rw [← List.getElem?_map, hfacts, List.getElem?_map]

theorem linkedFacts_recordLink (hitem : ReadyItem db item) :
    linkedFacts (recordLink item e now maxSeverity db) e =
      insert item.alert.facts (linkedFacts db e) := by
  ext f
  simp only [linkedFacts, Set.mem_ofPred_eq, linkedTo_recordLink, facts_recordLink,
    Set.mem_insert_iff]
  constructor
  · rintro ⟨i, hi | ⟨-, rfl⟩, hf⟩
    · exact .inr ⟨i, hi, hf⟩
    · exact .inl (Option.some.inj (hf.symm.trans hitem.facts))
  · rintro (rfl | ⟨i, hi, hf⟩)
    · exact ⟨item.alertId, .inr ⟨trivial, rfl⟩, hitem.facts⟩
    · exact ⟨i, .inl hi, hf⟩

theorem linkedFacts_recordLink_ne {e' : ℕ} (he : e' ≠ e) :
    linkedFacts (recordLink item e now maxSeverity db) e' = linkedFacts db e' := by
  ext f
  simp [linkedFacts, linkedTo_recordLink, facts_recordLink, he]

theorem linkedTriage_recordLink (hitem : ReadyItem db item)
    (hunique : (db.triageResults.map (·.alertId)).Nodup) :
    linkedTriage (recordLink item e now maxSeverity db) e =
      insert item.triage (linkedTriage db e) := by
  ext t
  simp only [linkedTriage, Set.mem_ofPred_eq, linkedTo_recordLink, Set.mem_insert_iff]
  change t ∈ db.triageResults ∧ _ ↔ _
  constructor
  · rintro ⟨ht, hi | ⟨-, hid⟩⟩
    · exact .inr ⟨ht, hi⟩
    · exact .inl (List.inj_on_of_nodup_map hunique ht hitem.triage (hid.trans hitem.alertId.symm))
  · rintro (rfl | ⟨ht, hi⟩)
    · exact ⟨hitem.triage, .inr ⟨trivial, hitem.alertId⟩⟩
    · exact ⟨ht, .inl hi⟩

theorem linkedTriage_recordLink_ne {e' : ℕ} (he : e' ≠ e) :
    linkedTriage (recordLink item e now maxSeverity db) e' = linkedTriage db e' := by
  ext t
  simp only [linkedTriage, Set.mem_ofPred_eq, linkedTo_recordLink, he, false_and, or_false]
  rfl

/-- The severity shown in a title is the greatest of the linked alerts and the new one. -/
theorem isGreatest_maxSeverityForEvent (db : Db) (e : ℕ) (severity : ℤ) :
    IsGreatest (insert severity (AlertFacts.severity '' linkedFacts db e))
      (maxSeverityForEvent db e severity) := by
  have hmem : {x | x ∈ ((alertsOf db.eventAlerts e).filterMap fun a => db.alerts[a]?).map
      (·.severity)} = AlertFacts.severity '' linkedFacts db e := by
    ext s
    simp only [alertsOf, Set.mem_ofPred_eq, List.mem_map, List.mem_filterMap, List.mem_filter,
      beq_iff_eq, linkedFacts, LinkedTo, Set.mem_image]
    constructor
    · rintro ⟨a, ⟨i, ⟨l, ⟨hl, he⟩, hi⟩, ha⟩, rfl⟩
      exact ⟨a.facts, ⟨i, ⟨l, hl, he, hi⟩, by rw [ha]; rfl⟩, rfl⟩
    · rintro ⟨f, ⟨i, ⟨l, hl, he, hi⟩, hf⟩, rfl⟩
      obtain ⟨a, ha, rfl⟩ := Option.map_eq_some_iff.mp hf
      exact ⟨a, ⟨i, ⟨l, ⟨hl, he⟩, hi⟩, ha⟩, rfl⟩
  have hgreatest := (greatestOf_max? (((alertsOf db.eventAlerts e).filterMap
    fun a => db.alerts[a]?).map (·.severity))).insert severity
  rw [hmem] at hgreatest
  unfold maxSeverityForEvent
  dsimp only
  split at hgreatest
  · rename_i hmax
    rw [hmax]
    exact hgreatest
  · rename_i s hmax
    rw [hmax]
    exact hgreatest

theorem EventStats.link {event : Event} {dims : AggregationDimensions}
    (h : EventStats rt config db e event) (hitem : ReadyItem db item)
    (hunique : (db.triageResults.map (·.alertId)).Nodup)
    (hdims : normalizeDimensions rt config item.alert.hostName item.alert.userName
      item.alert.alertCategory item.alert.occurredAt = .ok dims)
    (hkey : dims.eventKey = event.eventKey) :
    EventStats rt config
      (recordLink item e now (maxSeverityForEvent db e item.alert.severity) db) e
      (updateEventStats item.alert item.triage (maxSeverityForEvent db e item.alert.severity)
        event) where
  count := by
    change event.alertCount + 1 = (db.eventAlerts ++ [_]).countP _
    rw [List.countP_append, h.count]
    simp
  first := by
    rw [linkedFacts_recordLink hitem, Set.image_insert_eq]
    have hfirst := h.first.insert item.alert.occurredAt
    unfold updateEventStats
    cases ht : event.firstAlertAt with
    | none =>
      rw [ht] at hfirst
      exact hfirst
    | some t =>
      rw [ht] at hfirst
      exact hfirst
  last := by
    rw [linkedFacts_recordLink hitem, Set.image_insert_eq]
    have hlast := h.last.insert item.alert.occurredAt
    unfold updateEventStats
    cases ht : event.lastAlertAt with
    | none =>
      rw [ht] at hlast
      exact hlast
    | some t =>
      rw [ht] at hlast
      exact hlast
  risk := by
    rw [linkedTriage_recordLink hitem hunique, Set.image_insert_eq, Set.insert_comm]
    have hrisk := h.risk.insert item.triage.ruleScore
    rwa [max_comm] at hrisk
  priority := by
    rw [linkedTriage_recordLink hitem hunique]
    rintro t (rfl | ht)
    · exact le_max_right _ _
    · exact (h.priority t ht).trans (le_max_left _ _)
  title := by
    rw [linkedFacts_recordLink hitem, Set.image_insert_eq]
    exact ⟨some _, isGreatest_maxSeverityForEvent db e item.alert.severity, rfl⟩
  key := by
    rw [linkedFacts_recordLink hitem]
    rintro f (rfl | hf)
    · exact ⟨dims, hdims, hkey⟩
    · exact h.key f hf

theorem EventStats.link_ne {e' : ℕ} {event : Event} (h : EventStats rt config db e' event)
    (he : e' ≠ e) : EventStats rt config (recordLink item e now maxSeverity db) e' event where
  count := by
    change _ = (db.eventAlerts ++ [_]).countP _
    rw [List.countP_append, h.count]
    simp [he.symm]
  first := by
    rw [linkedFacts_recordLink_ne he]
    exact h.first
  last := by
    rw [linkedFacts_recordLink_ne he]
    exact h.last
  risk := by
    rw [linkedTriage_recordLink_ne he]
    exact h.risk
  priority := by
    rw [linkedTriage_recordLink_ne he]
    exact h.priority
  title := by
    rw [linkedFacts_recordLink_ne he]
    exact h.title
  key := by
    rw [linkedFacts_recordLink_ne he]
    exact h.key

theorem eventStats_newEvent {dims : AggregationDimensions} {createdAt : Time}
    (h : ∀ l ∈ db.eventAlerts, l.eventId ≠ e) :
    EventStats rt config db e (newEvent item.alert dims createdAt) := by
  have hlinked : ∀ i, ¬LinkedTo db e i := by
    rintro i ⟨l, hl, he, -⟩
    exact h l hl he
  have hfacts : linkedFacts db e = ∅ :=
    Set.eq_empty_of_forall_notMem fun f ⟨i, hi, _⟩ => hlinked i hi
  have htriage : linkedTriage db e = ∅ :=
    Set.eq_empty_of_forall_notMem fun t ⟨_, ht⟩ => hlinked _ ht
  constructor
  case count =>
    refine (List.countP_eq_zero.mpr fun l hl => ?_).symm
    simpa using h l hl
  case first => exact (Set.image_eq_empty.mpr hfacts :)
  case last => exact (Set.image_eq_empty.mpr hfacts :)
  case risk =>
    rw [htriage, Set.image_empty, insert_empty_eq]
    exact isGreatest_singleton
  case priority =>
    rw [htriage]
    rintro t ⟨⟩
  case title => exact ⟨none, Set.image_eq_empty.mpr hfacts, rfl⟩
  case key =>
    rw [hfacts]
    rintro f ⟨⟩

theorem EventStats.congr {event event' : Event} (h : EventStats rt config db e event)
    (hevent : SameStats event event') (hlinks : db'.eventAlerts = db.eventAlerts)
    (hfacts : linkedFacts db' e = linkedFacts db e)
    (htriage : linkedTriage db' e = linkedTriage db e) : EventStats rt config db' e event' where
  count := by
    rw [hevent.alertCount, hlinks]
    exact h.count
  first := by
    rw [hevent.firstAlertAt, hfacts]
    exact h.first
  last := by
    rw [hevent.lastAlertAt, hfacts]
    exact h.last
  risk := by
    rw [hevent.riskScore, htriage]
    exact h.risk
  priority := by
    rw [htriage]
    exact fun t ht => (h.priority t ht).trans hevent.queuePriority
  title := by
    rw [hevent.title, hevent.category, hevent.hostName, hevent.userName, hevent.alertCount, hfacts]
    exact h.title
  key := by
    rw [hevent.eventKey, hfacts]
    exact h.key

theorem aggregated_recordLink {target : Event} {dims : AggregationDimensions}
    (htriaged : (db.triageResults.map (·.alertId)).Nodup)
    (hlinks : ∀ l ∈ db.eventAlerts, l.eventId < db.events.length ∧ l.alertId < db.alerts.length ∧
      ∃ t ∈ db.triageResults, t.alertId = l.alertId)
    (hlinked : ∀ e', e' < db.events.length → e' ≠ e → ∃ i, LinkedTo db e' i)
    (hstats : ∀ (e' : ℕ) (event : Event), db.events[e']? = some event →
      EventStats rt config db e' event)
    (hitem : ReadyItem db item) (htarget : db.events[e]? = some target)
    (hdims : normalizeDimensions rt config item.alert.hostName item.alert.userName
      item.alert.alertCategory item.alert.occurredAt = .ok dims)
    (hkey : dims.eventKey = target.eventKey) :
    Aggregated rt config
      (recordLink item e now (maxSeverityForEvent db e item.alert.severity) db) where
  triaged := htriaged
  links := by
    obtain ⟨a, ha, -⟩ := Option.map_eq_some_iff.mp hitem.facts
    intro l hl
    simp only [recordLink, List.mem_append, List.mem_singleton] at hl
    simp only [recordLink, List.length_modify]
    rcases hl with hl | rfl
    · exact hlinks l hl
    · exact ⟨Rows.lt_of_getElem? htarget, Rows.lt_of_getElem? ha, item.triage, hitem.triage,
        hitem.alertId⟩
  linked := by
    intro e' he'
    by_cases he : e' = e
    · exact ⟨item.alertId, linkedTo_recordLink.mpr (.inr ⟨he, rfl⟩)⟩
    · simp only [recordLink, List.length_modify] at he'
      obtain ⟨i, hi⟩ := hlinked e' he' he
      exact ⟨i, linkedTo_recordLink.mpr (.inl hi)⟩
  stats := by
    intro e' event hevent
    simp only [recordLink] at hevent
    rcases Rows.getElem?_update.mp hevent with ⟨rfl, old, hold, rfl⟩ | ⟨he, hevent⟩
    · obtain rfl : target = old := Option.some.inj (htarget.symm.trans hold)
      exact (hstats e target htarget).link hitem htriaged hdims hkey
    · exact (hstats e' event hevent).link_ne (Ne.symm he)

theorem Aggregated.aggregated {tie : ℕ → ℕ} (h : Aggregated rt config db) (hitem : ReadyItem db item)
    (hl : Linked rt config tie item db db') : Aggregated rt config db' := by
  obtain ⟨dims, eventId, events, now, hdims, -, hchosen, rfl⟩ := hl
  have hitem' : ReadyItem { db with events := events } item :=
    ⟨hitem.facts, hitem.triage, hitem.alertId⟩
  have hmax : maxSeverityForEvent db eventId item.alert.severity =
    maxSeverityForEvent { db with events := events } eventId item.alert.severity := rfl
  rw [hmax]
  cases hchosen with
  | @merged _ target hfound =>
    obtain ⟨hmem, hkey, -⟩ := findMergeTarget_some hfound
    exact aggregated_recordLink h.triaged h.links (fun e' he' _ => h.linked e' he') h.stats hitem
      (Rows.mem_select.mp hmem).1 hdims hkey.symm
  | created createdAt =>
    have htarget : (db.events ++ [newEvent item.alert dims createdAt])[db.events.length]? =
      some (newEvent item.alert dims createdAt) := by simp
    refine aggregated_recordLink h.triaged ?_ ?_ ?_ hitem' htarget hdims rfl
    · intro l hl
      obtain ⟨he, ha⟩ := h.links l hl
      exact ⟨by simp; omega, ha⟩
    · intro e' he' hne
      simp only [List.length_append, List.length_singleton] at he'
      exact h.linked e' (by omega)
    · intro e' event hevent
      rcases Rows.getElem?_insert.mp hevent with hevent | ⟨rfl, rfl⟩
      · exact (h.stats e' event hevent).congr (.refl _) rfl rfl rfl
      · exact eventStats_newEvent fun l hl => (h.links l hl).1.ne

theorem ReadyItem.linked {tie : ℕ → ℕ} {item' : PendingAlert} (h : ReadyItem db item')
    (hl : Linked rt config tie item db db') : ReadyItem db' item' := by
  obtain ⟨dims, eventId, events, now, -, -, -, rfl⟩ := hl
  exact ⟨facts_recordLink.trans h.facts, h.triage, h.alertId⟩

theorem readyItem_of_mem_fetchPending {tie : ℕ → ℕ} {n : ℕ} (h : item ∈ fetchPending tie n db) :
    ReadyItem db item := by
  have hmem := Rows.mem_of_mem_orderLimit h
  simp only [List.mem_flatMap, Prod.exists, Rows.mem_select, List.mem_map, List.mem_filter,
    Bool.and_eq_true, beq_iff_eq] at hmem
  obtain ⟨i, a, ⟨ha, -⟩, t, ⟨ht, hid, -⟩, rfl⟩ := hmem
  exact ⟨by rw [ha]; rfl, ht, hid⟩

theorem aggregationRun_aggregated {env : AggregationRunEnv} {limit : Option ℤ} {useLock : Bool} :
    Respects (OnDb fun db db' => Aggregated rt config db → Aggregated rt config db')
      (aggregationRun rt config env limit useLock) := by
  unfold aggregationRun
  split
  · exact respects_pure _
  · refine (respects_sqlLimit _).bind fun n => (respects_fallible _).bind fun _ w hw => ?_
    rw [exec_query_bind]
    -- what was fetched of the alerts still to come remains true
    refine Loop.run_rule (fun (items : List PendingAlert) _ (w : World) =>
      Aggregated rt config w.db ∧ ∀ item ∈ items, ReadyItem w.db item)
      (fun w => Aggregated rt config w.db) (fun item items r w created w' h hb => ?_)
      (fun item items r w e w' h _ => ⟨h.1, fun i hi => h.2 i (List.mem_cons_of_mem _ hi)⟩)
      (fun _ _ _ h => h.1) ⟨hw, fun item hi => readyItem_of_mem_fetchPending hi⟩
    obtain ⟨created, w₁, hone, hc⟩ := exec_bind_ok.mp hb
    simp only [exec_fallible_bind_ok, exec_pure, Prod.mk.injEq] at hc
    obtain ⟨-, -, rfl⟩ := hc
    have hlinked := aggregateOne_linked hone
    exact ⟨h.1.aggregated (h.2 item List.mem_cons_self) hlinked,
      fun i hi => (h.2 i (List.mem_cons_of_mem _ hi)).linked hlinked⟩

/--
What may happen between two runs: alerts and triage results are added, and events change in
anything but their statistics, their status above all.
-/
structure Interlude (db db' : Db) : Prop where
  links : db'.eventAlerts = db.eventAlerts
  events : List.Forall₂ SameStats db.events db'.events
  alerts : db.alerts.map Alert.facts <+: db'.alerts.map Alert.facts
  results : db.triageResults <+: db'.triageResults
  triaged : (db'.triageResults.map (·.alertId)).Nodup

theorem Interlude.facts (hi : Interlude db db') (h : i < db.alerts.length) :
    (db'.alerts[i]?).map Alert.facts = (db.alerts[i]?).map Alert.facts := by
  obtain ⟨new, hnew⟩ := hi.alerts
  rw [← List.getElem?_map, ← hnew, List.getElem?_append_left (by simpa using h), List.getElem?_map]

theorem Interlude.linkedTo (hi : Interlude db db') : LinkedTo db' e i ↔ LinkedTo db e i := by
  unfold LinkedTo
  rw [hi.links]

theorem Interlude.linkedFacts (hi : Interlude db db') (h : Aggregated rt config db) :
    linkedFacts db' e = linkedFacts db e := by
  ext f
  simp only [Minsight.linkedFacts, Set.mem_ofPred_eq, hi.linkedTo]
  refine exists_congr fun i => and_congr_right ?_
  rintro ⟨l, hl, -, rfl⟩
  rw [hi.facts (h.links l hl).2.1]

/-- A linked alert has its only triage result already, so a new one is of another alert. -/
theorem Interlude.linkedTriage (hi : Interlude db db') (h : Aggregated rt config db) :
    linkedTriage db' e = linkedTriage db e := by
  ext t
  simp only [Minsight.linkedTriage, Set.mem_ofPred_eq, hi.linkedTo]
  refine and_congr_left ?_
  rintro ⟨l, hl, -, hid⟩
  constructor
  · intro ht
    obtain ⟨t', ht', hid'⟩ := (h.links l hl).2.2
    have hmem := hi.results.subset ht'
    obtain rfl := List.inj_on_of_nodup_map hi.triaged ht hmem (hid.symm.trans hid'.symm)
    exact ht'
  · exact fun ht => hi.results.subset ht

theorem Interlude.aggregated (hi : Interlude db db') (h : Aggregated rt config db) :
    Aggregated rt config db' where
  triaged := hi.triaged
  links := by
    rw [hi.links, ← hi.events.length_eq]
    intro l hl
    obtain ⟨he, ha, t, ht, hid⟩ := h.links l hl
    have hle := hi.alerts.length_le
    simp only [List.length_map] at hle
    exact ⟨he, ha.trans_le hle, t, hi.results.subset ht, hid⟩
  linked := by
    rw [← hi.events.length_eq]
    intro e he
    obtain ⟨i, hlinked⟩ := h.linked e he
    exact ⟨i, hi.linkedTo.mpr hlinked⟩
  stats := by
    intro e event' hevent'
    have he := Rows.lt_of_getElem? hevent'
    rw [← hi.events.length_eq] at he
    obtain ⟨event, hevent⟩ : ∃ event, db.events[e]? = some event := ⟨_, List.getElem?_eq_getElem he⟩
    have hsame : SameStats event event' := by
      have hget := hi.events.get he (Rows.lt_of_getElem? hevent')
      obtain ⟨_, rfl⟩ := List.getElem?_eq_some_iff.mp hevent
      obtain ⟨_, rfl⟩ := List.getElem?_eq_some_iff.mp hevent'
      exact hget
    exact (h.stats e event hevent).congr hsame hi.links (hi.linkedFacts h) (hi.linkedTriage h)

/-- The states reached by aggregation runs that do not overlap, from no event at all. -/
inductive AggregationReached (rt : Runtime) (config : AggregationConfig) : World → Prop
  | init {w : World} (events : w.db.events = []) (links : w.db.eventAlerts = [])
      (triaged : (w.db.triageResults.map (·.alertId)).Nodup) : AggregationReached rt config w
  | run {w : World} (env : AggregationRunEnv) (limit : Option ℤ) (useLock : Bool)
      (reached : AggregationReached rt config w) :
      AggregationReached rt config (exec (aggregationRun rt config env limit useLock) w).2
  | between {w w' : World} (reached : AggregationReached rt config w)
      (interlude : Interlude w.db w'.db) : AggregationReached rt config w'

/-- In every state reached the statistics of every event are those of its linked alerts. -/
theorem event_statistics {w : World} (h : AggregationReached rt config w) :
    Aggregated rt config w.db := by
  induction h with
  | init events links triaged =>
    refine ⟨triaged, ?_, ?_, ?_⟩
    · rw [links]
      rintro l ⟨⟩
    · rw [events]
      rintro e ⟨⟩
    · rw [events]
      rintro e event ⟨⟩
  | run env limit useLock _ ih => exact aggregationRun_aggregated _ ih
  | between _ interlude ih => exact interlude.aggregated ih

def queuedAlerts : World where
  db := {
    alerts := [
      { dataSourceId := 0, sourceAlertId := "a-1", fingerprint := "f-1", severity := 5,
        occurredAt := 7, ingestedAt := 10, status := .triaged },
      { dataSourceId := 0, sourceAlertId := "a-2", fingerprint := "f-2", severity := 4,
        occurredAt := 2, ingestedAt := 11, status := .triaged }]
    triageResults := [
      { alertId := 0, ruleScore := 3, routeDecision := .queueUncertain, triagedAt := 20 },
      { alertId := 1, ruleScore := 8, routeDecision := .queueDeepReview, triagedAt := 21 }] }

theorem event_statistics_two_alerts :
    ∃ w, AggregationReached (sampleRuntime .free sampleDigests) {} w ∧
      w.db.events.map (fun e => (e.alertCount, e.firstAlertAt, e.lastAlertAt, e.queuePriority)) =
        [(2, some 2, some 7, 10)] ∧
      w.db.events.map (·.title) =
        [some "[uncategorized] unknown-host / unknown-user (2 alerts, max_severity=5)"] ∧
      Aggregated (sampleRuntime .free sampleDigests) {} w.db := by
  have hreached : AggregationReached (sampleRuntime .free sampleDigests) {} _ :=
    .run { items := fun _ => { now := 30 } } none true
      (.init (w := queuedAlerts) rfl rfl (by decide))
  refine ⟨_, hreached, and_assoc.mp ⟨?_, event_statistics hreached⟩⟩
  decide +kernel

end

end Minsight

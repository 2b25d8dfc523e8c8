import Mathlib.Data.Finset.Dedup
import Minsight.Console.RuleNoise
import Minsight.Foundation.Rows
import Minsight.Foundation.Trimmed

/-! # The samples of the noisy rules

`list_noisy_rules` joins the alerts of events with the latest investigation of each event, its
conclusion and its disposition records. An alert has a row for every record, and the rows of a rule
and an event are merged again, so each alert is counted once.
-/

namespace Minsight

open Rows

structure NoiseQueryRow where
  alertId : ℕ
  ruleId : Option String
  ruleName : Option String
  eventId : ℕ
  verdict : InvestigationVerdict
  status : Option DispositionStatus

/-- What the query reads apart from the tables: the clock, the order of investigations that started
at the same time, and the order of the rows. -/
structure NoiseEnv where
  now : Time
  tie : ℕ × Investigation → ℕ := Prod.fst
  arrange : List NoiseQueryRow → List NoiseQueryRow
  arrange_perm : ∀ rows, (arrange rows).Perm rows

variable (env : NoiseEnv) (days : ℤ) (db : Db)

/-- `latest`: of the investigations of an event that finished in these days, the one that started
last. -/
def latestFinished (eventId : ℕ) : Option ℕ :=
  let finished := db.investigations.select fun _ inv =>
    decide (inv.eventId = eventId) && inv.finishedAt.any (env.now - hours (24 * days) ≤ ·)
  ((orderLimit (descending (·.2.startedAt) env.tie) 1 finished).head?).map Prod.fst

/-- The statuses of the disposition records of an investigation, or one row without any. -/
def dispositionStatuses (investigationId : ℕ) : List (Option DispositionStatus) :=
  match db.dispositionRecords.filter (·.investigationId = investigationId) with
  | [] => [none]
  | records => records.map fun r => some r.status

def linkRows (link : EventAlert) : List NoiseQueryRow :=
  match db.alerts[link.alertId]?, db.events[link.eventId]?,
      latestFinished env days db link.eventId with
  | some alert, some _, some inv =>
    (db.conclusions.filter (·.investigationId = inv)).flatMap fun conclusion =>
      (dispositionStatuses db inv).map fun status =>
        { alertId := link.alertId, ruleId := alert.ruleId, ruleName := alert.ruleName
          eventId := link.eventId, verdict := conclusion.verdict, status }
  | _, _, _ => []

def noiseRows : List NoiseQueryRow := env.arrange (db.eventAlerts.flatMap (linkRows env days db))

structure NoiseItem where
  ruleId : Option String
  ruleName : Option String
  eventId : String
  verdict : String
  alertIds : Finset ℕ := ∅
  humanConfirmed : Bool := false
  humanRejected : Bool := false

/-- `(key_rule, str(event_id))` -/
def NoiseQueryRow.key (row : NoiseQueryRow) : Option (String × String) :=
  (ruleKey row.ruleId row.ruleName).map fun rule => (rule, toString row.eventId)

def startItem (row : NoiseQueryRow) : NoiseItem where
  ruleId := cleanText row.ruleId
  ruleName := cleanText row.ruleName
  eventId := toString row.eventId
  verdict := row.verdict.value

def addRow (item : NoiseItem) (row : NoiseQueryRow) : NoiseItem :=
  { item with
    alertIds := insert row.alertId item.alertIds
    humanConfirmed := item.humanConfirmed || decide (row.status = some .confirmed)
    humanRejected := item.humanRejected || decide (row.status = some .rejected) }

def NoiseItem.sample (item : NoiseItem) : NoiseSample where
  ruleId := item.ruleId
  ruleName := item.ruleName
  eventId := item.eventId
  verdict := some item.verdict
  alertCount := some item.alertIds.card
  humanConfirmed := item.humanConfirmed
  humanRejected := item.humanRejected

def noiseSamples (rows : List NoiseQueryRow) : List NoiseSample :=
  (groups NoiseQueryRow.key startItem addRow rows).map fun group => group.2.sample

/-- The answer of `list_noisy_rules`. -/
structure NoisyRules where
  days : ℤ
  items : List NoiseRow
  note : String := "统计来自最近调查结论，以及处置建议的人工确认/驳回。不会修改 Wazuh 规则。"

def listNoisyRules (limit : ℤ) : NoisyRules where
  days := days
  items := aggregateRuleNoise (noiseSamples (noiseRows env days db)) limit

def ruleAlerts (rule : String) (eventId : ℕ) : Finset ℕ :=
  ((db.eventAlerts.filter fun link => decide (link.eventId = eventId) &&
    (db.alerts[link.alertId]?).any fun alert =>
      decide (ruleKey alert.ruleId alert.ruleName = some rule)).map (·.alertId)).toFinset

/-- The sample of a rule and an event counts the distinct alerts of the event that go by the
rule. -/
structure IsSampleOf (rule : String) (eventId : ℕ) (sample : NoiseSample) : Prop where
  about : sample.key = some rule
  event : sample.eventId = toString eventId
  alerts : sample.alertCount = some ((ruleAlerts db rule eventId).card : ℤ)

variable {env : NoiseEnv} {days : ℤ} {db : Db} {rule : String} {eventId : ℕ}

theorem cleanText_cleanText (text : Option String) :
    cleanText (cleanText text) = cleanText text := by
  have hclean : ∀ s, cleanText (some s) = truthyText (some (strip s)) := fun _ => rfl
  have hcases : cleanText text = none ∨ cleanText text = some (strip (text.getD "")) := by
    rw [cleanText, truthyText, Option.filter_some]
    split
    · exact .inr rfl
    · exact .inl rfl
  rcases hcases with h | h
  · rw [h]
    rfl
  · rw [h, hclean, strip_strip]
    exact h

structure IsItemOf (rows : List NoiseQueryRow) (item : NoiseItem) : Prop where
  alerts : item.alertIds = (rows.map (·.alertId)).toFinset
  first : ∀ row ∈ rows.head?, item.ruleId = cleanText row.ruleId ∧
    item.ruleName = cleanText row.ruleName ∧ item.eventId = toString row.eventId

theorem isItemOf_foldGroup {rows : List NoiseQueryRow} {item : NoiseItem}
    (h : foldGroup startItem addRow rows = some item) : IsItemOf rows item := by
  induction rows using List.reverseRecOn generalizing item with
  | nil => cases h
  | append_singleton rows row ih =>
    rw [foldGroup_concat] at h
    obtain rfl := Option.some.inj h
    cases hgroup : foldGroup startItem addRow rows with
    | none =>
      obtain rfl := foldGroup_eq_none.mp hgroup
      constructor
      · rfl
      · rintro _ ⟨⟩
        simp only [Option.getD_none, addRow, startItem, and_self]
    | some before =>
      obtain ⟨halerts, hfirst⟩ := ih hgroup
      have hne : rows ≠ [] := by
        rintro rfl
        cases hgroup
      constructor
      · rw [Option.getD_some, List.map_append, List.toFinset_append, ← halerts, Finset.union_comm]
        rfl
      · intro first hmem
        rw [List.head?_append_of_ne_nil _ hne] at hmem
        exact hfirst first hmem

theorem mem_noiseSamples {rows : List NoiseQueryRow} {sample : NoiseSample} :
    sample ∈ noiseSamples rows ↔ ∃ key item,
      foldGroup startItem addRow (ofKey NoiseQueryRow.key rows key) = some item ∧
        item.sample = sample := by
  rw [noiseSamples, List.mem_map]
  constructor
  · rintro ⟨⟨key, item⟩, hmem, hsample⟩
    exact ⟨key, item, mem_groups.mp hmem, hsample⟩
  · rintro ⟨key, item, hgroup, hsample⟩
    exact ⟨(key, item), mem_groups.mpr hgroup, hsample⟩

theorem sample_key {rows : List NoiseQueryRow} {key : String × String} {item : NoiseItem}
    (h : foldGroup startItem addRow (ofKey NoiseQueryRow.key rows key) = some item) :
    item.sample.key = some key.1 ∧ item.sample.eventId = key.2 := by
  have hne : ofKey NoiseQueryRow.key rows key ≠ [] := by
    intro hnil
    rw [hnil] at h
    cases h
  obtain ⟨row, rest, hrows⟩ := List.exists_cons_of_ne_nil hne
  have hrow : row.key = some key := by
    have hmem : row ∈ ofKey NoiseQueryRow.key rows key := hrows ▸ List.mem_cons_self
    simpa [ofKey] using (List.mem_filter.mp hmem).2
  obtain ⟨hid, hname, hevent⟩ := (isItemOf_foldGroup h).first row (by rw [hrows]; rfl)
  obtain ⟨rule, hrule, rfl⟩ := Option.map_eq_some_iff.mp hrow
  refine ⟨?_, hevent⟩
  rw [NoiseSample.key, NoiseItem.sample, ruleKey, hid, hname, cleanText_cleanText,
    cleanText_cleanText]
  exact hrule

theorem noiseSamples_distinct (rows : List NoiseQueryRow) : DistinctKeys (noiseSamples rows) := by
  intro rule
  have hkeys := @groups_nodup _ _ _ _ NoiseQueryRow.key startItem addRow rows
  rw [ruleSamples, ofKey, noiseSamples, List.filter_map, List.map_map, List.nodup_iff_pairwise_ne,
    List.pairwise_map]
  rw [List.nodup_iff_pairwise_ne, List.pairwise_map] at hkeys
  refine (hkeys.filter _).imp_of_mem ?_
  rintro ⟨k, item⟩ ⟨k', item'⟩ hmem hmem' hne heq
  obtain ⟨hgroup, hrule⟩ := List.mem_filter.mp hmem
  obtain ⟨hgroup', hrule'⟩ := List.mem_filter.mp hmem'
  obtain ⟨hkey, hevent⟩ := sample_key (mem_groups.mp hgroup)
  obtain ⟨hkey', hevent'⟩ := sample_key (mem_groups.mp hgroup')
  refine hne (Prod.ext ?_ ?_)
  · have h₁ : item.sample.key = some rule := by simpa using hrule
    have h₂ : item'.sample.key = some rule := by simpa using hrule'
    rw [hkey] at h₁
    rw [hkey'] at h₂
    exact Option.some.inj (h₁.trans h₂.symm)
  · rw [← hevent, ← hevent']
    exact heq

theorem mem_noiseRows {row : NoiseQueryRow} :
    row ∈ noiseRows env days db ↔ ∃ link ∈ db.eventAlerts, row ∈ linkRows env days db link := by
  rw [noiseRows, (env.arrange_perm _).mem_iff, List.mem_flatMap]

theorem dispositionStatuses_ne_nil (investigationId : ℕ) :
    dispositionStatuses db investigationId ≠ [] := by
  unfold dispositionStatuses
  split
  · exact List.cons_ne_nil _ _
  · rename_i hne
    simpa using hne

/-- A row of a link is about its alert and its event, and the event is one that has a conclusion. -/
theorem linkRows_row {link : EventAlert} {row : NoiseQueryRow}
    (h : row ∈ linkRows env days db link) :
    row.alertId = link.alertId ∧ row.eventId = link.eventId ∧
      (∃ alert, db.alerts[link.alertId]? = some alert ∧ row.ruleId = alert.ruleId ∧
        row.ruleName = alert.ruleName) ∧ (db.events[link.eventId]?).isSome = true ∧
      ∃ inv, latestFinished env days db link.eventId = some inv ∧
        ∃ conclusion ∈ db.conclusions, conclusion.investigationId = inv := by
  unfold linkRows at h
  split at h
  · rename_i alert event inv halert hevent hinv
    obtain ⟨conclusion, hmem, h⟩ := List.mem_flatMap.mp h
    obtain ⟨status, -, rfl⟩ := List.mem_map.mp h
    obtain ⟨hconclusion, hfor⟩ := List.mem_filter.mp hmem
    exact ⟨rfl, rfl, ⟨alert, halert, rfl, rfl⟩, by rw [hevent]; rfl,
      inv, hinv, conclusion, hconclusion, by simpa using hfor⟩
  · cases h

/-- An alert of an event that has a conclusion has a row, whatever records there are. -/
theorem exists_linkRow {link : EventAlert} {alert : Alert} {inv : ℕ}
    {conclusion : InvestigationConclusion} (halert : db.alerts[link.alertId]? = some alert)
    (hevent : (db.events[link.eventId]?).isSome = true)
    (hinv : latestFinished env days db link.eventId = some inv)
    (hconclusion : conclusion ∈ db.conclusions) (hfor : conclusion.investigationId = inv) :
    ∃ row ∈ linkRows env days db link, row.alertId = link.alertId ∧ row.ruleId = alert.ruleId ∧
      row.ruleName = alert.ruleName ∧ row.eventId = link.eventId := by
  obtain ⟨event, hevent⟩ := Option.isSome_iff_exists.mp hevent
  obtain ⟨status, hstatus⟩ := List.exists_mem_of_ne_nil _ (@dispositionStatuses_ne_nil db inv)
  refine ⟨{ alertId := link.alertId, ruleId := alert.ruleId, ruleName := alert.ruleName
            eventId := link.eventId, verdict := conclusion.verdict, status },
    ?_, rfl, rfl, rfl, rfl⟩
  simp only [linkRows, halert, hevent, hinv]
  have hfor : conclusion ∈ db.conclusions.filter (·.investigationId = inv) :=
    List.mem_filter.mpr ⟨hconclusion, by simpa using hfor⟩
  exact List.mem_flatMap.mpr ⟨conclusion, hfor, List.mem_map.mpr ⟨status, hstatus, rfl⟩⟩

theorem mem_ruleAlerts {i : ℕ} : i ∈ ruleAlerts db rule eventId ↔ ∃ link ∈ db.eventAlerts,
    link.alertId = i ∧ link.eventId = eventId ∧ ∃ alert, db.alerts[link.alertId]? = some alert ∧
      ruleKey alert.ruleId alert.ruleName = some rule := by
  simp only [ruleAlerts, List.mem_toFinset, List.mem_map, List.mem_filter, Bool.and_eq_true,
    decide_eq_true_eq, Option.any_eq_true]
  constructor
  · rintro ⟨link, ⟨hlink, hevent, alert, halert, hrule⟩, rfl⟩
    exact ⟨link, hlink, rfl, hevent, alert, halert, hrule⟩
  · rintro ⟨link, hlink, rfl, hevent, alert, halert, hrule⟩
    exact ⟨link, ⟨hlink, hevent, alert, halert, hrule⟩, rfl⟩

theorem toString_injective : (toString : ℕ → String).Injective := by
  intro m n h
  have hdigits : Nat.toDigits 10 m = Nat.toDigits 10 n := by
    rw [← Nat.toList_repr, ← Nat.toList_repr]
    exact congrArg String.toList h
  have hvalue := congrArg (Nat.ofDigitChars 10 · 0) hdigits
  simpa using hvalue

theorem NoiseQueryRow.key_eq {row : NoiseQueryRow} {key : String × String}
    (h : row.key = some key) :
    ruleKey row.ruleId row.ruleName = some key.1 ∧ key.2 = toString row.eventId := by
  obtain ⟨rule, hrule, rfl⟩ := Option.map_eq_some_iff.mp h
  exact ⟨hrule, rfl⟩

/-- Where an event has a conclusion, its rows of a rule have the alerts of the rule. -/
theorem rows_alerts {inv : ℕ} {conclusion : InvestigationConclusion}
    (hevent : (db.events[eventId]?).isSome = true)
    (hinv : latestFinished env days db eventId = some inv)
    (hconclusion : conclusion ∈ db.conclusions) (hfor : conclusion.investigationId = inv) :
    ((ofKey NoiseQueryRow.key (noiseRows env days db) (rule, toString eventId)).map
      (·.alertId)).toFinset = ruleAlerts db rule eventId := by
  ext i
  rw [mem_ruleAlerts, List.mem_toFinset, List.mem_map]
  constructor
  · rintro ⟨row, hrow, rfl⟩
    obtain ⟨hmem, hkey⟩ := List.mem_filter.mp hrow
    obtain ⟨link, hlink, hlinkRow⟩ := mem_noiseRows.mp hmem
    obtain ⟨halertId, heventId, ⟨alert, halert, hid, hname⟩, -⟩ := linkRows_row hlinkRow
    obtain ⟨hrule, htext⟩ := NoiseQueryRow.key_eq (of_decide_eq_true hkey)
    refine ⟨link, hlink, halertId.symm, ?_, alert, halert, ?_⟩
    · exact heventId.symm.trans (toString_injective htext).symm
    · rw [← hid, ← hname, hrule]
  · rintro ⟨link, hlink, rfl, rfl, alert, halert, hrule⟩
    obtain ⟨row, hrow, halertId, hid, hname, heventId⟩ :=
      exists_linkRow halert hevent hinv hconclusion hfor
    refine ⟨row, List.mem_filter.mpr ⟨mem_noiseRows.mpr ⟨link, hlink, hrow⟩, ?_⟩, halertId⟩
    rw [decide_eq_true_iff, NoiseQueryRow.key, hid, hname, hrule, heventId]
    rfl

/-- Each alert is counted once in the sample of its rule and event, whatever number of disposition
records the investigation has. -/
theorem noiseSamples_alerts {sample : NoiseSample}
    (h : sample ∈ noiseSamples (noiseRows env days db)) :
    ∃ rule eventId, IsSampleOf db rule eventId sample := by
  obtain ⟨⟨rule, text⟩, item, hgroup, rfl⟩ := mem_noiseSamples.mp h
  obtain ⟨hrule, hevent⟩ := sample_key hgroup
  have hne : ofKey NoiseQueryRow.key (noiseRows env days db) (rule, text) ≠ [] := by
    intro hnil
    rw [hnil] at hgroup
    cases hgroup
  -- one row of the sample tells its event
  obtain ⟨row, hrow⟩ := List.exists_mem_of_ne_nil _ hne
  obtain ⟨hmem, hkey⟩ := List.mem_filter.mp hrow
  obtain ⟨link, -, hlink⟩ := mem_noiseRows.mp hmem
  obtain ⟨-, heventId, -, hexists, inv, hinv, conclusion, hconclusion, hfor⟩ :=
    linkRows_row hlink
  obtain rfl : text = toString link.eventId :=
    heventId ▸ (NoiseQueryRow.key_eq (of_decide_eq_true hkey)).2
  refine ⟨rule, link.eventId, hrule, hevent, ?_⟩
  rw [NoiseItem.sample, (isItemOf_foldGroup hgroup).alerts,
    rows_alerts hexists hinv hconclusion hfor]

theorem listNoisyRules_ranked (limit : ℤ) :
    RanksNoise (noiseSamples (noiseRows env days db)) limit
      (listNoisyRules env days db limit).items :=
  aggregateRuleNoise_ranks (noiseSamples_distinct _) limit

/-- The rows that `aggregate_rule_noise` returns rank the noisy rules among the samples, in whatever
order these come, and `list_noisy_rules` feeds it one sample for a rule and an event, which counts
each alert once. -/
theorem ruleNoise_ranked :
    (∀ samples limit, DistinctKeys samples →
      RanksNoise samples limit (aggregateRuleNoise samples limit) ∧
        ∀ samples', samples.Perm samples' →
          SameCounters (aggregateRuleNoise samples limit) (aggregateRuleNoise samples' limit)) ∧
      ∀ (env : NoiseEnv) (days : ℤ) (db : Db), DistinctKeys (noiseSamples (noiseRows env days db)) ∧
        ∀ sample ∈ noiseSamples (noiseRows env days db),
          ∃ rule eventId, IsSampleOf db rule eventId sample := by
  constructor
  · intro samples limit hdistinct
    exact ⟨aggregateRuleNoise_ranks hdistinct limit,
      fun samples' h => aggregateRuleNoise_perm hdistinct h limit⟩
  · intro env days db
    exact ⟨noiseSamples_distinct _, fun sample => noiseSamples_alerts⟩

/-- Two events of one rule, one of them confirmed as a false positive. -/
def twoSamples : List NoiseSample :=
  [{ ruleId := some "5710", eventId := "1", verdict := some noiseFp, alertCount := some 4
     humanConfirmed := true },
    { ruleId := some "5710", eventId := "2", verdict := some noiseAttack, alertCount := some 2 }]

/-- The query answers with its rows from the last link to the first. -/
def reversedNoise : NoiseEnv where
  now := 0
  arrange := List.reverse
  arrange_perm := List.reverse_perm

/-- Two alerts of one rule in one event, whose last investigation has three disposition records. -/
def disposedDb : Db where
  alerts := ["a-1", "a-2"].map fun sourceAlertId =>
    { dataSourceId := 0, sourceAlertId, fingerprint := sourceAlertId, ruleId := some "5710"
      occurredAt := 0, ingestedAt := 0 }
  events := [{ eventKey := "EVT-1", createdAt := 0 }]
  eventAlerts := [0, 1].map fun alertId => { eventId := 0, alertId, addedAt := 0 }
  investigations := [{ eventId := 0, modelName := "m", startedAt := 0, finishedAt := some 0 }]
  conclusions := [{ investigationId := 0, verdict := .likelyFalsePositive, confidence := 1
                    riskLevel := .low, reasoning := "" }]
  dispositionRecords := [.suggested, .rejected, .confirmed].map fun status =>
    { investigationId := 0, suggestedAction := "ignore", status }

theorem ruleNoise_ranked_two : RanksNoise twoSamples 20 (aggregateRuleNoise twoSamples 20) ∧
    (noiseRows reversedNoise 30 disposedDb).length = 6 ∧
      (noiseSamples (noiseRows reversedNoise 30 disposedDb)).map (·.alertCount) = [some 2] ∧
        ∀ sample ∈ noiseSamples (noiseRows reversedNoise 30 disposedDb),
          ∃ rule eventId, IsSampleOf disposedDb rule eventId sample := by
  have hdistinct : DistinctKeys twoSamples := by
    intro key
    have hnodup : (twoSamples.map (·.eventId)).Nodup := (by decide : ["1", "2"].Nodup)
    exact hnodup.sublist (List.filter_sublist.map _)
  exact ⟨(ruleNoise_ranked.1 twoSamples 20 hdistinct).1, by decide +kernel, by decide +kernel,
    (ruleNoise_ranked.2 reversedNoise 30 disposedDb).2⟩

end Minsight

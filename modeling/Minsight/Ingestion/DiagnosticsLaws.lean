import Minsight.Foundation.Tx
import Minsight.Ingestion.Diagnostics

/-! # What a diagnosis says

A report is fine exactly when every source is in order, and a source that was pulled to the end is
still said to have alerts to pull.
-/

namespace Minsight.Diagnostics

theorem worst_ok_iff {α : Type} {error warn : α → Bool} {l : List α} :
    (if l.any error then OverallStatus.error else if l.any warn then .warn else .ok) = .ok ↔
      ∀ a ∈ l, error a = false ∧ warn a = false := by
  have hnone (p : α → Bool) : (∀ a ∈ l, p a = false) ↔ l.any p = false := by simp
  rw [forall₂_and, hnone, hnone]
  cases l.any error <;> cases l.any warn <;> simp

def Clear (checks : List DiagnosticCheck) : Prop :=
  ∀ check ∈ checks, check.status ≠ .error ∧ check.status ≠ .warn

variable {checks checks' : List DiagnosticCheck} {check : DiagnosticCheck}

theorem statusFromChecks_ok_iff : statusFromChecks checks = .ok ↔ Clear checks := by
  rw [statusFromChecks, worst_ok_iff, Clear]
  simp only [decide_eq_false_iff_not]

@[simp] theorem clear_nil : Clear [] := by simp [Clear]

@[simp] theorem clear_cons :
    Clear (check :: checks) ↔
      (check.status ≠ .error ∧ check.status ≠ .warn) ∧ Clear checks :=
  List.forall_mem_cons

@[simp] theorem clear_append : Clear (checks ++ checks') ↔ Clear checks ∧ Clear checks' :=
  List.forall_mem_append

theorem aggregateStatus_ok_iff {reports : List DataSourceDiagnostics} :
    aggregateStatus reports = .ok ↔
      ∀ r ∈ reports, r.adapterType ≠ "health_probe" → r.overallStatus = .ok := by
  have hstatus (s : OverallStatus) : s = .ok ↔ s ≠ .error ∧ s ≠ .warn := by cases s <;> simp
  have hreal : (∀ r ∈ reports, r.adapterType ≠ "health_probe" → r.overallStatus = .ok) ↔
      ∀ r ∈ reports.filter (·.adapterType ≠ "health_probe"), r.overallStatus = .ok := by
    simp only [List.mem_filter, decide_eq_true_eq, and_imp]
  rw [hreal]
  unfold aggregateStatus
  generalize reports.filter (·.adapterType ≠ "health_probe") = real
  dsimp only
  split
  · rename_i hnil
    simp [hnil]
  · rw [worst_ok_iff]
    simp only [decide_eq_false_iff_not, hstatus]

theorem not_clear (h : check.status = .error) : ¬ Clear (check :: checks) := fun hclear =>
  (hclear check List.mem_cons_self).1 h

/-- One of the first three attempts succeeds, and none before it is refused. -/
def Attempts.Answered (attempts : Attempts) : Prop :=
  ∃ n < 3, (∃ status, attempts n = .ok status) ∧
    ∀ m < n, ∃ e, attempts m = .error e ∧ e.unauthorized = false

theorem requestFrom_ok_iff {attempts : Attempts} {left n : ℕ} :
    (∃ status, requestFrom attempts left n = .ok status) ↔
      ∃ k ≤ left, (∃ status, attempts (n + k) = .ok status) ∧
        ∀ m < k, ∃ e, attempts (n + m) = .error e ∧ e.unauthorized = false := by
  induction left generalizing n with
  | zero => simp [requestFrom]
  | succ left ih =>
    rw [requestFrom]
    split
    · rename_i status hn
      simp only [Except.ok.injEq, exists_eq', true_iff]
      exact ⟨0, Nat.zero_le _, ⟨status, hn⟩, by simp⟩
    · rename_i e hn
      split
      · rename_i hrefused
        simp only [reduceCtorEq, exists_false, false_iff]
        rintro ⟨k, -, ⟨status, hk⟩, hbefore⟩
        cases k with
        | zero => rw [Nat.add_zero, hn] at hk; cases hk
        | succ k =>
          obtain ⟨e', he', hfine⟩ := hbefore 0 (Nat.succ_pos k)
          rw [Nat.add_zero, hn] at he'
          obtain rfl := Except.error.inj he'
          rw [hrefused] at hfine
          cases hfine
      · rename_i hfine
        rw [ih]
        constructor
        · rintro ⟨k, hk, hstatus, hbefore⟩
          refine ⟨k + 1, by omega, by rwa [Nat.add_assoc, Nat.add_comm 1] at hstatus, ?_⟩
          intro m hm
          cases m with
          | zero => exact ⟨e, hn, Bool.not_eq_true _ ▸ hfine⟩
          | succ m =>
            have hm' := hbefore m (by omega)
            rwa [Nat.add_assoc, Nat.add_comm 1] at hm'
        · rintro ⟨k, hk, hstatus, hbefore⟩
          cases k with
          | zero =>
            rw [Nat.add_zero, hn] at hstatus
            simp at hstatus
          | succ k =>
            refine ⟨k, by omega, by rwa [Nat.add_assoc, Nat.add_comm 1], fun m hm => ?_⟩
            have hm' := hbefore (m + 1) (by omega)
            rwa [Nat.add_assoc, Nat.add_comm 1]

theorem requestWithRetry_ok_iff {attempts : Attempts} :
    (∃ status, requestWithRetry attempts = .ok status) ↔ attempts.Answered := by
  rw [requestWithRetry, requestFrom_ok_iff, Attempts.Answered]
  simp only [Nat.zero_add, Nat.lt_succ_iff]

variable {lib : IngestLib} {source : DataSource} {env : SourceEnv} {stats : DataSourceStats}
  {db : IngestDb} {i : ℕ}

/-- Alerts can be pulled and some are stored, or the cursor is within a minute of the latest. -/
def WindowInOrder (cursor : CursorState) (latest : Option Time) (windowCount alertsInDb : ℕ) :
    Prop :=
  0 < windowCount ∧ 0 < alertsInDb ∨
    windowCount = 0 ∧ ∃ t last, cursor.lastOccurredAt = some t ∧ latest = some last ∧ t ≤ last ∧
      |last - t| < 60000000

/-- The indexer of a source is probed without an error. -/
structure Probed (lib : IngestLib) (source : DataSource) (env : SourceEnv) (config : IndexerConfig)
    (cursor : CursorState) (latest : Option Time) : Prop where
  configured : IndexerConfig.validate lib.pydantic source.config = some config
  credentials : config.hasCredentials env.environ = true
  loaded : CursorState.load lib.pydantic source.cursorState = some cursor
  unharmed : env.probeFault = none
  latestAnswered : env.latestAttempts.Answered
  windowAnswered : env.windowAttempts.Answered
  dated : latestTime lib.rt env.toProbeEnv = .ok latest

/-- The indexer of a source answers, and its documents are being pulled. -/
structure WazuhInOrder (lib : IngestLib) (alertsInDb : ℕ) (source : DataSource) (env : SourceEnv)
    (config : IndexerConfig) (cursor : CursorState) (latest : Option Time) : Prop
    extends Probed lib source env config cursor latest where
  indexed : env.latestIndex ≠ []
  window : WindowInOrder cursor latest
    (windowMatches env.windowIndex
      (windowStart config.initialLookbackHours env.clock cursor)).length alertsInDb

theorem windowCheck_clear_iff (lookback : ℤ) (clock : PullClock) {cursor : CursorState}
    {latest : Option Time} {windowCount alertsInDb : ℕ} :
    Clear ((windowCheck lookback (windowStart lookback clock cursor) cursor latest windowCount
        alertsInDb).1 :: if alertsInDb = 0 ∧ 0 < windowCount then [dbEmptyCheck] else []) ↔
      WindowInOrder cursor latest windowCount alertsInDb := by
  unfold windowCheck WindowInOrder
  split
  · rename_i hpending
    have hne : windowCount ≠ 0 := by omega
    split
    · rename_i hempty
      simp [pendingCheck, dbEmptyCheck, hne, hempty.1]
    · rename_i hstored
      have hstored' : 0 < alertsInDb := by omega
      simp [pendingCheck, hpending, hstored']
  · rename_i hnone
    obtain rfl : windowCount = 0 := by omega
    simp only [lt_self_iff_false, and_false, if_false, false_and, false_or, true_and]
    cases latest with
    | none => simp [emptyWindowCheck]
    | some last =>
      cases ht : cursor.lastOccurredAt with
      | none =>
        dsimp only
        split <;> simp [gapCheck, emptyWindowCheck]
      | some t =>
        have hstart : windowStart lookback clock cursor = t := by rw [windowStart, ht]
        dsimp only
        rw [hstart]
        split
        · rename_i hgap
          simp [gapCheck, hgap]
        · rename_i hgap
          split
          · rename_i hnear
            simp [caughtUpCheck, not_lt.mp hgap, hnear]
          · rename_i hfar
            simp [fallenBehindCheck, hfar]

theorem probe_cases {lookback : ℤ} {cursor : CursorState} {result : IndexerProbeResult}
    (h : probe lib.rt lookback cursor env.toProbeEnv = .ok result) :
    (∃ latest, env.latestAttempts.Answered ∧ env.windowAttempts.Answered ∧
        latestTime lib.rt env.toProbeEnv = .ok latest ∧ result.connected = true ∧
        result.latestTimestamp = latest ∧
        result.totalAlerts = some (min env.latestIndex.length 10000) ∧
        result.windowStart = windowStart lookback env.clock cursor ∧
        result.windowMatchCount = some (windowMatches env.windowIndex
          (windowStart lookback env.clock cursor)).length) ∨
      result.connected = false ∧
        ¬(env.latestAttempts.Answered ∧ env.windowAttempts.Answered) := by
  have hdisconnected (start : Time) (e : RequestError) :
      (disconnected start e).connected = false := by cases e <;> rfl
  unfold probe at h
  dsimp only at h
  split at h
  · rename_i e hlatest
    obtain rfl := Except.ok.inj h
    refine .inr ⟨hdisconnected _ e, fun hanswered => ?_⟩
    obtain ⟨status, hok⟩ := requestWithRetry_ok_iff.mpr hanswered.1
    rw [hlatest] at hok
    cases hok
  · rename_i status hlatest
    split at h
    · cases h
    · rename_i latest hdated
      split at h
      · rename_i e hwindow
        obtain rfl := Except.ok.inj h
        refine .inr ⟨hdisconnected _ e, fun hanswered => ?_⟩
        obtain ⟨status, hok⟩ := requestWithRetry_ok_iff.mpr hanswered.2
        rw [hwindow] at hok
        cases hok
      · rename_i status' hwindow
        obtain rfl := Except.ok.inj h
        exact .inl ⟨latest, requestWithRetry_ok_iff.mp ⟨status, hlatest⟩,
          requestWithRetry_ok_iff.mp ⟨status', hwindow⟩, hdated, rfl, rfl, rfl, rfl, rfl⟩

theorem latestTime_of_error {lookback : ℤ} {cursor : CursorState} {e : Exn}
    (h : probe lib.rt lookback cursor env.toProbeEnv = .error e) :
    latestTime lib.rt env.toProbeEnv = .error e := by
  unfold probe at h
  dsimp only at h
  split at h
  · cases h
  · split at h
    · rename_i hlatest
      obtain rfl := Except.error.inj h
      exact hlatest
    · split at h <;> cases h

theorem answeringFindings_clear_iff {config : IndexerConfig} {cursor : CursorState}
    {result : IndexerProbeResult} {clock : PullClock} {index : List Doc}
    (htotal : result.totalAlerts = some (min index.length 10000))
    (hstart : result.windowStart = windowStart config.initialLookbackHours clock cursor) :
    Clear (answeringFindings config cursor result stats).checks ↔
      index ≠ [] ∧ WindowInOrder cursor result.latestTimestamp
        (result.windowMatchCount.getD 0) stats.alertsInDb := by
  have hcursor (start : Time) :
      (cursorCheck config.initialLookbackHours start cursor).status ≠ .error ∧
        (cursorCheck config.initialLookbackHours start cursor).status ≠ .warn := by
    unfold cursorCheck
    split <;> simp
  unfold answeringFindings
  dsimp only
  split
  · rename_i hempty
    rw [htotal, Option.some.injEq] at hempty
    obtain rfl : index = [] := List.length_eq_zero_iff.mp (by omega)
    simp [noDataCheck, connectionCheck]
  · rename_i hsome
    have hne : index ≠ [] := by
      rintro rfl
      exact hsome htotal
    rw [← windowCheck_clear_iff config.initialLookbackHours clock, hstart]
    simp only [List.cons_append, List.nil_append]
    rw [clear_cons, clear_cons]
    exact ⟨fun h => ⟨hne, h.2.2⟩, fun h => ⟨by simp [connectionCheck], hcursor _, h.2⟩⟩

theorem diagnoseWazuh_of_probed {config : IndexerConfig} {cursor : CursorState}
    {latest : Option Time} (h : Probed lib source env config cursor latest) :
    ∃ result stats', diagnoseWazuh lib source env stats =
        .ok (answeringFindings config cursor result stats') ∧
      stats'.alertsInDb = stats.alertsInDb ∧
      result.totalAlerts = some (min env.latestIndex.length 10000) ∧
      result.windowMatchCount = some (windowMatches env.windowIndex
        (windowStart config.initialLookbackHours env.clock cursor)).length := by
  obtain ⟨status, hlatest⟩ := requestWithRetry_ok_iff.mpr h.latestAnswered
  obtain ⟨status', hwindow⟩ := requestWithRetry_ok_iff.mpr h.windowAnswered
  unfold diagnoseWazuh
  simp only [h.configured, h.credentials, h.loaded, h.unharmed, probe, hlatest, h.dated, hwindow]
  exact ⟨_, _, rfl, rfl, rfl, rfl⟩

theorem diagnoseWazuh_clear_iff {findings : Findings}
    (h : diagnoseWazuh lib source env stats = .ok findings) :
    Clear findings.checks ↔
      ∃ config cursor latest,
        WazuhInOrder lib stats.alertsInDb source env config cursor latest := by
  unfold diagnoseWazuh at h
  cases hconfig : IndexerConfig.validate lib.pydantic source.config with
  | none =>
    simp only [hconfig] at h
    obtain rfl := Except.ok.inj h
    refine iff_of_false (not_clear rfl) ?_
    rintro ⟨config, cursor, latest, hin⟩
    rw [hin.configured] at hconfig
    cases hconfig
  | some config =>
    simp only [hconfig] at h
    split at h
    · rename_i hcredentials
      obtain rfl := Except.ok.inj h
      refine iff_of_false (not_clear rfl) ?_
      rintro ⟨config', cursor, latest, hin⟩
      obtain rfl := Option.some.inj (hconfig.symm.trans hin.configured)
      rw [hin.credentials] at hcredentials
      cases hcredentials
    · rename_i hcredentials
      cases hload : CursorState.load lib.pydantic source.cursorState with
      | none =>
        simp only [hload] at h
        cases h
      | some cursor =>
        simp only [hload] at h
        cases hfault : env.probeFault with
        | some text =>
          simp only [hfault] at h
          obtain rfl := Except.ok.inj h
          refine iff_of_false (not_clear rfl) ?_
          rintro ⟨config', cursor', latest, hin⟩
          rw [hin.unharmed] at hfault
          cases hfault
        | none =>
          cases hprobe : probe lib.rt config.initialLookbackHours cursor env.toProbeEnv with
          | error e =>
            simp only [hfault, hprobe] at h
            obtain rfl := Except.ok.inj h
            refine iff_of_false (not_clear rfl) ?_
            rintro ⟨config', cursor', latest, hin⟩
            exact absurd (hin.dated.symm.trans (latestTime_of_error hprobe)) (by simp)
          | ok result =>
            simp only [hfault, hprobe] at h
            rcases probe_cases hprobe with ⟨latest, hl, hw, hdated, hconnected, hlatest, htotal,
              hstart, hcount⟩ | ⟨hconnected, hunanswered⟩
            · rw [if_pos hconnected] at h
              obtain rfl := Except.ok.inj h
              rw [answeringFindings_clear_iff htotal hstart, hlatest, hcount]
              constructor
              · rintro ⟨hindexed, hwindow⟩
                exact ⟨config, cursor, latest, {
                  configured := hconfig
                  credentials := Bool.eq_true_of_not_eq_false hcredentials
                  loaded := hload
                  unharmed := hfault
                  latestAnswered := hl
                  windowAnswered := hw
                  dated := hdated
                  indexed := hindexed
                  window := hwindow }⟩
              · rintro ⟨config', cursor', latest', hin⟩
                obtain rfl := Option.some.inj (hconfig.symm.trans hin.configured)
                obtain rfl := Option.some.inj (hload.symm.trans hin.loaded)
                obtain rfl := Except.ok.inj (hdated.symm.trans hin.dated)
                exact ⟨hin.indexed, hin.window⟩
            · rw [if_neg (Bool.not_eq_true _ ▸ hconnected)] at h
              obtain rfl := Except.ok.inj h
              refine iff_of_false (not_clear rfl) ?_
              rintro ⟨config', cursor', latest', hin⟩
              exact hunanswered ⟨hin.latestAnswered, hin.windowAnswered⟩

/-- A source that is active, and whose indexer, if it has one, is in order. -/
def SourceInOrder (lib : IngestLib) (db : IngestDb) (i : ℕ) (source : DataSource)
    (env : SourceEnv) : Prop :=
  source.isActive = true ∧
    (source.adapterType = "mock" ∨
      source.adapterType = "wazuh" ∧ ∃ config cursor latest,
        WazuhInOrder lib (db.alerts.countP (·.dataSourceId = i)) source env config cursor latest)

theorem clear_inactive : Clear (if source.isActive then [] else [inactiveCheck]) ↔
    source.isActive = true := by
  cases source.isActive <;> simp [inactiveCheck]

theorem diagnoseSource_ok_iff {report : DataSourceDiagnostics}
    (h : diagnoseSource lib db i source env = .ok report) :
    report.adapterType = source.adapterType ∧
      (source.adapterType ≠ "health_probe" →
        (report.overallStatus = .ok ↔ SourceInOrder lib db i source env)) := by
  unfold diagnoseSource at h
  obtain ⟨stats, hstats, h⟩ := Tx.except_bind_ok.mp h
  have hstored : stats.alertsInDb = db.alerts.countP (·.dataSourceId = i) := by
    unfold loadStats at hstats
    obtain ⟨total, -, hstats⟩ := Tx.except_bind_ok.mp hstats
    rw [← Except.ok.inj hstats]
  dsimp only at h
  split at h
  · rename_i hprobe
    rw [← Except.ok.inj h]
    exact ⟨rfl, fun hne => absurd hprobe hne⟩
  · split at h
    · rename_i hunknown
      rw [← Except.ok.inj h]
      refine ⟨rfl, fun _ => iff_of_false ?_ ?_⟩
      · rw [buildReport, statusFromChecks_ok_iff, clear_append]
        exact fun hclear => not_clear rfl hclear.2
      · rintro ⟨-, htype | ⟨htype, -⟩⟩ <;> simp [htype, registeredTypes] at hunknown
    · rename_i hprobe hknown
      split at h
      · rename_i hwazuh
        obtain ⟨findings, hfindings, h⟩ := Tx.except_bind_ok.mp h
        rw [← Except.ok.inj h]
        refine ⟨rfl, fun _ => ?_⟩
        rw [buildReport, statusFromChecks_ok_iff, clear_append, clear_inactive,
          diagnoseWazuh_clear_iff hfindings, hstored]
        simp [SourceInOrder, hwazuh]
      · rename_i hwazuh
        have hmock : source.adapterType = "mock" := by
          simpa [registeredTypes, hprobe, hwazuh] using hknown
        rw [← Except.ok.inj h]
        refine ⟨rfl, fun _ => ?_⟩
        rw [buildReport, statusFromChecks_ok_iff, clear_inactive]
        simp [SourceInOrder, hmock]

/--
Search after search until there is no more, with the cursor that is stored at the end; `none` when
a search raises or there is no fuel left.
-/
def pullAll (lib : IngestLib) (hoursBack : ℤ) (index : List Doc) (clock : ℕ → PullClock)
    (batchSize : ℕ) : ℕ → ℕ → CursorState → Option (List Document × CursorState)
  | 0, _, _ => none
  | fuel + 1, n, cursor => do
    let pull ← searchAlerts lib.rt lib.searchAfter hoursBack index (clock n) cursor batchSize
    let stored ← CursorState.load lib.pydantic (pull.nextCursor.dump lib.pydantic)
    if pull.hasMore then
      let rest ← pullAll lib hoursBack index clock batchSize fuel (n + 1) stored
      some (pull.items ++ rest.1, rest.2)
    else some (pull.items, stored)

variable {index : List Doc} {clock : ℕ → PullClock} {hoursBack : ℤ} {batchSize fuel n : ℕ}
  {cursor cursor' : CursorState}

def Seen (lib : IngestLib) (index : List Doc) (cursor : CursorState) (last : Doc) : Prop :=
  last ∈ index ∧ cursor.lastOccurredAt = some last.timestamp ∧
    readAfter lib.searchAfter cursor.searchAfter = some (some last.key)

theorem seen_of_pullAll (hb : 1 ≤ batchSize) (keeps : KeepsTimes lib.rt lib.pydantic index clock)
    (htimes : ∀ n, ∀ d ∈ index, lastTime lib.rt clock n d = some d.timestamp)
    {k : Option DocKey} (hk : readAfter lib.searchAfter cursor.searchAfter = some k)
    {docs : List Document}
    (hpull : pullAll lib hoursBack index clock batchSize fuel n cursor = some (docs, cursor'))
    (hsome : docs ≠ [] ∨ ∃ last, Seen lib index cursor last) :
    ∃ last, Seen lib index cursor' last ∧
      Paging.shown Doc.timestamp Doc.key (ordered index) ⟨last.timestamp, some last.key⟩ = [] := by
  induction fuel generalizing n cursor k docs with
  | zero => cases hpull
  | succ fuel ih =>
    rw [pullAll, searchAlerts_of_page hk rfl] at hpull
    cases hlast : ((Paging.shown Doc.timestamp Doc.key (ordered index)
        (windowOf hoursBack (clock n) cursor k)).take batchSize).getLast? with
    | none =>
      have hempty := List.getLast?_eq_none_iff.mp hlast
      have hb' : batchSize ≠ 0 := by omega
      have hshown := (List.take_eq_nil_iff.mp hempty).resolve_left hb'
      have hmore : decide (batchSize ≤ ([] : List Doc).length) = false := by simp [hb']
      rw [hempty] at hpull
      simp only [advance, List.getLast?_nil, Option.map_some, Option.bind_eq_bind, Option.bind_some,
        hmore, Bool.false_eq_true, if_false, List.map_nil] at hpull
      obtain ⟨stored, hload, hpull⟩ := Option.bind_eq_some_iff.mp hpull
      obtain ⟨rfl, rfl⟩ := Prod.mk.inj (Option.some.inj hpull)
      obtain ⟨last, hmem, hoccurred, hafter⟩ := hsome.resolve_left (by simp)
      -- the cursor is stored again with the time of the run
      rw [CursorState.load_dump (fun t ht => ?_) (fun t ht => ?_)] at hload
      · obtain rfl := Option.some.inj hload
        obtain rfl := Option.some.inj (hk.symm.trans hafter)
        refine ⟨last, ⟨hmem, hoccurred, hafter⟩, ?_⟩
        rw [windowOf, windowStart, hoccurred] at hshown
        exact hshown
      · obtain rfl := Option.some.inj (hoccurred.symm.trans ht)
        exact keeps.parsed n last hmem _ (htimes n last hmem)
      · obtain rfl := Option.some.inj ht
        exact keeps.finished n
    | some last =>
      have hmem : last ∈ index := (ordered_perm index).subset
        (List.mem_of_mem_filter (List.mem_of_mem_take (List.mem_of_getLast? hlast)))
      have htime := htimes n last hmem
      have hadvance : advance lib.rt (clock n) cursor ((Paging.shown Doc.timestamp Doc.key
          (ordered index) (windowOf hoursBack (clock n) cursor k)).take batchSize) =
          some (cursor.moved last last.timestamp) := by
        rw [lastTime] at htime
        simp only [advance, hlast, htime, Option.map_some]
      have hseen : Seen lib index { cursor.moved last last.timestamp with
          lastSuccessfulRunAt := some (clock n).finishedAt } last :=
        ⟨hmem, rfl, readAfter_moved cursor last _ _⟩
      simp only [hadvance, Option.map_some, Option.bind_eq_bind, Option.bind_some,
        load_moved keeps cursor hmem htime] at hpull
      split at hpull
      · obtain ⟨rest, hrest, hpull⟩ := Option.bind_eq_some_iff.mp hpull
        obtain ⟨-, rfl⟩ := Prod.mk.inj (Option.some.inj hpull)
        exact ih hseen.2.2 hrest (.inr ⟨last, hseen⟩)
      · rename_i hshort
        obtain ⟨-, rfl⟩ := Prod.mk.inj (Option.some.inj hpull)
        refine ⟨last, hseen, ?_⟩
        rw [decide_eq_true_eq, not_le, List.length_take] at hshort
        rw [Paging.shown_after (ordered_sorted index) (fun _ _ => Doc.timestamp_le) hlast,
          List.drop_eq_nil_iff.mpr (by omega), List.filter_nil]

/--
After a complete pull the next search is empty, but the diagnosis still has alerts to pull: it
counts the documents from the time of the last one on. It never says that the source caught up.
-/
theorem pulled_source_shows_pending (hb : 1 ≤ batchSize)
    (keeps : KeepsTimes lib.rt lib.pydantic index clock)
    (htimes : ∀ n, ∀ d ∈ index, lastTime lib.rt clock n d = some d.timestamp)
    {k : Option DocKey} (hk : readAfter lib.searchAfter cursor.searchAfter = some k)
    {docs : List Document} (hdocs : docs ≠ [])
    (hpull : pullAll lib hoursBack index clock batchSize fuel n cursor = some (docs, cursor'))
    {config : IndexerConfig} {latest : Option Time}
    (hprobed : Probed lib source env config cursor' latest)
    (hstill : env.latestIndex = index ∧ env.windowIndex = index) :
    (∀ clock, search lib.searchAfter index
      (buildQuery config.initialLookbackHours clock cursor' batchSize) = some []) ∧
    ∃ (findings : Findings) (last : Doc), diagnoseWazuh lib source env stats = .ok findings ∧
      cursor'.lastOccurredAt = some last.timestamp ∧
      0 < (windowMatches index last.timestamp).length ∧
      pendingCheck (windowMatches index last.timestamp).length stats.alertsInDb ∈ findings.checks ∧
      ∀ check ∈ findings.checks, check.id ≠ "caught_up" := by
  obtain ⟨last, ⟨hmem, hoccurred, hafter⟩, hshown⟩ :=
    seen_of_pullAll hb keeps htimes hk hpull (.inl hdocs)
  have hstart (clock : PullClock) :
      windowStart config.initialLookbackHours clock cursor' = last.timestamp := by
    rw [windowStart, hoccurred]
  have hpending : 0 < (windowMatches index last.timestamp).length :=
    List.length_pos_of_mem (List.mem_filter.mpr ⟨hmem, by simp⟩)
  refine ⟨fun clock => ?_, ?_⟩
  · rw [search, buildQuery, hafter, Option.map_some, hstart, hshown, List.take_nil]
  · obtain ⟨result, stats', hfindings, hstored, htotal, hcount⟩ :=
      @diagnoseWazuh_of_probed _ _ _ stats _ _ _ hprobed
    rw [hstill.1] at htotal
    rw [hstill.2, hstart] at hcount
    refine ⟨_, last, hfindings, hoccurred, hpending, ?_⟩
    have hsome : result.totalAlerts ≠ some 0 := by
      rw [htotal, ne_eq, Option.some.injEq]
      have hlength := List.length_pos_of_mem hmem
      omega
    have hcursor (start : Time) :
        (cursorCheck config.initialLookbackHours start cursor').id = "cursor" := by
      unfold cursorCheck
      split <;> rfl
    rw [← hstored]
    unfold answeringFindings
    simp only [hsome, if_false, hcount, Option.getD_some, windowCheck, hpending, if_true]
    refine ⟨by simp, fun check hcheck => ?_⟩
    simp only [List.cons_append, List.nil_append, List.mem_cons] at hcheck
    rcases hcheck with rfl | rfl | rfl | hcheck
    · simp [connectionCheck]
    · simp [hcursor]
    · simp [pendingCheck]
    · split at hcheck
      · obtain rfl := List.mem_singleton.mp hcheck
        simp [dbEmptyCheck]
      · cases hcheck

theorem isoIndex_newest {d : Doc} (hd : isoIndex[2]? = some d) :
    d ∈ isoIndex ∧ ∀ d' ∈ isoIndex, d'.timestamp ≤ d.timestamp := by
  obtain rfl := Option.some.inj hd
  exact ⟨by simp [isoIndex], by simp [isoIndex, sampleDoc]⟩

theorem isoIndex_latest_iff : isoIndex[2]? = none ↔ isoIndex = [] := by simp [isoIndex]

def isoEnv : SourceEnv where
  latestAttempts n := if n = 0 then .error (.transport "timed out") else .ok 200
  windowAttempts _ := .ok 200
  latestIndex := isoIndex
  windowIndex := isoIndex
  latestHit := isoIndex[2]?
  latestHit_iff := isoIndex_latest_iff
  latestHit_newest _ := isoIndex_newest
  clock := sampleClock
  environ _ := some "reader"

theorem isoEnv_answered :
    isoEnv.latestAttempts.Answered ∧ isoEnv.windowAttempts.Answered := by
  refine ⟨⟨1, by decide, ⟨200, rfl⟩, fun m hm => ?_⟩, ⟨0, by decide, ⟨200, rfl⟩, by simp⟩⟩
  obtain rfl : m = 0 := by omega
  exact ⟨_, rfl, rfl⟩

def isoCursor : CursorState where
  lastOccurredAt := some 1767225660000000
  lastSortValues := some [.int 1767225660000000, .str "a3"]
  lastSuccessfulRunAt := some 1767268800000000

theorem isoCursor_pulled :
    ∃ docs, docs ≠ [] ∧
      pullAll sampleLib 24 isoIndex (fun _ => sampleClock) 2 4 0 {} = some (docs, isoCursor) := by
  have hpulled : (pullAll sampleLib 24 isoIndex (fun _ => sampleClock) 2 4 0 {}).map
      (fun r => (r.1.isEmpty, r.2)) = some (false, isoCursor) := rfl
  obtain ⟨⟨docs, cursor⟩, hpull, hcursor⟩ := Option.map_eq_some_iff.mp hpulled
  obtain ⟨hdocs, rfl⟩ := Prod.mk.inj hcursor
  exact ⟨docs, List.isEmpty_eq_false_iff.mp hdocs, hpull⟩

def isoSource : DataSource := { sampleSource with cursorState := isoCursor.dump samplePydantic }

theorem isoTimes (n : ℕ) (d : Doc) (hd : d ∈ isoIndex) :
    lastTime sampleLib.rt (fun _ => sampleClock) n d = some d.timestamp :=
  isoIndex_times hd n

theorem isoTimes_kept : KeepsTimes sampleLib.rt samplePydantic isoIndex fun _ => sampleClock := by
  refine ⟨fun _ => ?_, fun n d hd t ht => ?_⟩
  · unfold Pydantic.Keeps
    decide +kernel
  · rw [isoTimes n d hd, Option.some.injEq] at ht
    subst ht
    simp only [isoIndex, List.mem_cons, List.not_mem_nil, or_false] at hd
    unfold Pydantic.Keeps
    rcases hd with rfl | rfl | rfl <;> decide +kernel

theorem isoCursor_kept :
    CursorState.load samplePydantic isoSource.cursorState = some isoCursor := by
  refine CursorState.load_dump (fun t ht => ?_) (fun t ht => ?_) <;>
  · obtain rfl := Option.some.inj ht
    unfold Pydantic.Keeps
    decide +kernel

theorem isoSource_probed :
    ∃ config latest, Probed sampleLib isoSource isoEnv config isoCursor latest := by
  have hconfig : (IndexerConfig.validate samplePydantic isoSource.config).isSome = true := rfl
  have hdated : (latestTime sampleLib.rt isoEnv.toProbeEnv).toOption.isSome = true := rfl
  obtain ⟨config, hconfig⟩ := Option.isSome_iff_exists.mp hconfig
  obtain ⟨latest, hdated⟩ := Option.isSome_iff_exists.mp hdated
  refine ⟨config, latest, {
    configured := hconfig
    credentials := rfl
    loaded := isoCursor_kept
    unharmed := rfl
    latestAnswered := isoEnv_answered.1
    windowAnswered := isoEnv_answered.2
    dated := ?_ }⟩
  cases hlatest : latestTime sampleLib.rt isoEnv.toProbeEnv with
  | error e => simp [hlatest, Except.toOption] at hdated
  | ok latest' =>
    rw [hlatest] at hdated
    rw [Option.some.inj hdated]

theorem pulled_source_shows_pending_iso :
    ∃ config : IndexerConfig,
      (∀ clock, search sampleSearchAfter isoIndex
        (buildQuery config.initialLookbackHours clock isoCursor 2) = some []) ∧
      ∃ (findings : Findings) (last : Doc),
        diagnoseWazuh sampleLib isoSource isoEnv {} = .ok findings ∧
        isoCursor.lastOccurredAt = some last.timestamp ∧
        0 < (windowMatches isoIndex last.timestamp).length ∧
        pendingCheck (windowMatches isoIndex last.timestamp).length 0 ∈ findings.checks ∧
        ∀ check ∈ findings.checks, check.id ≠ "caught_up" := by
  obtain ⟨docs, hdocs, hpull⟩ := isoCursor_pulled
  obtain ⟨config, latest, hprobed⟩ := isoSource_probed
  exact ⟨config, pulled_source_shows_pending (by decide) isoTimes_kept isoTimes rfl hdocs hpull
    hprobed ⟨rfl, rfl⟩⟩

/-- A demo source beside the pulled one, of which an alert is stored. -/
def isoDb : IngestDb where
  dataSources := [{ name := "demo", adapterType := "mock" }, isoSource]
  alerts := [{
    dataSourceId := 1, sourceAlertId := "a1", fingerprint := "a1", severity := 5, occurredAt := 0
    ingestedAt := 0 }]

def isoDiagnostics : DiagnosticsEnv where
  arrange sources := sources
  arrange_perm _ := List.Perm.refl _
  sources _ := isoEnv
  generatedAt := 0

end Minsight.Diagnostics

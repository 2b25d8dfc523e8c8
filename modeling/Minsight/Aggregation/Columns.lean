import Minsight.Aggregation.Statistics
import Minsight.Ingestion.Batch

/-! # The columns aggregation writes

An alert that satisfies the constraints of its own table is linked to an event whose rows have
constraints too. Every value written is bounded by the alert's columns but one: the title joins
three labels, each of which may be as long as its column, in a column that is not as long as
all of them.
-/

namespace Minsight

open Tx Session

/-- The row satisfies the constraints of every column of `events`. -/
def Event.fits (c : Columns) (e : Event) : Bool :=
  c.varchar 128 e.eventKey && e.title.all (c.varchar 512) && e.primaryCategory.all (c.varchar 64)
    && isInt32 e.alertCount && isInt32 e.queuePriority
    && e.aggregateHostName.all (c.varchar 256) && e.aggregateUserName.all (c.varchar 256)
    && e.aggregateCategory.all (c.varchar 64) && e.correlationKey.all (c.varchar 128)

def EventAlert.refers (db : Db) (l : EventAlert) : Bool :=
  l.eventId < db.events.length && l.alertId < db.alerts.length

/-- The constraints of `alerts`, `events` and `event_alerts`. -/
def Db.constrained (c : Columns) (db : Db) : Bool :=
  db.alerts.all (Alert.fits c) && db.events.all (Event.fits c)
    && db.eventAlerts.all (EventAlert.refers db)
    && decide (db.eventAlerts.map (·.alertId)).Nodup

/-- The database takes the rows of a transaction, or refuses them all. -/
def checkConstraints (c : Columns) : Session Unit := do
  let constrained ← Session.query (Db.constrained c)
  if constrained then pure () else Tx.raise .statement

/-- The loop over the pending alerts, on a database that enforces its constraints. -/
def constrainedLoop (c : Columns) (rt : Runtime) (config : AggregationConfig)
    (env : AggregationRunEnv) : Loop Exn World PendingAlert Bool AggregationRunResult :=
  { aggregationLoop rt config env with
    body := fun item => do
      let created ← aggregateOne rt config (env.items item.alertId) env.tie item
      checkConstraints c
      Tx.fallible ((env.items item.alertId).faults .commit)
      pure created }

def isPrintable (ch : Char) : Bool := 32 ≤ ch.toNat && ch.toNat < 127

/-- A text column takes a text by its characters, and takes what can be printed in ASCII. -/
structure TextColumns (c : Columns) (rt : Runtime) : Prop where
  append : ∀ s t, c.text (s ++ t) = (c.text s && c.text t)
  ascii : ∀ s : String, s.toList.all isPrintable = true → c.text s = true
  /-- A digest is written in hexadecimal digits. -/
  digest : ∀ s, (rt.sha256Hex s).toList.all isPrintable = true

/--
The labels, the digits of the two numbers and the 31 characters around them fit the column of
the title, and the count stays an `Integer`.
-/
def TitleRoom (event : Event) (maxSeverity : ℤ) : Prop :=
  (orText event.aggregateCategory "uncategorized").length
    + (orText event.aggregateHostName "unknown-host").length
    + (orText event.aggregateUserName "unknown-user").length
    + (toString (event.alertCount + 1)).length + (toString maxSeverity).length + 31 ≤ 512 ∧
  event.alertCount + 1 ≤ 2147483647

instance (event : Event) (maxSeverity : ℤ) : Decidable (TitleRoom event maxSeverity) :=
  inferInstanceAs (Decidable (_ ∧ _))

section

variable {c : Columns} {rt : Runtime} {env : AggregationRunEnv} {item : PendingAlert}
  {w w' : World} {db : Db}

theorem constrained_iff : db.constrained c = true ↔
    (∀ a ∈ db.alerts, a.fits c = true) ∧ (∀ e ∈ db.events, e.fits c = true) ∧
      (∀ l ∈ db.eventAlerts, l.eventId < db.events.length ∧ l.alertId < db.alerts.length) ∧
      (db.eventAlerts.map (·.alertId)).Nodup := by
  simp [Db.constrained, EventAlert.refers, and_assoc]

theorem length_buildEventTitle (category hostName userName : Option String) (count : ℕ)
    (severity : ℤ) : (buildEventTitle category hostName userName count severity).length =
      (orText category "uncategorized").length + (orText hostName "unknown-host").length
        + (orText userName "unknown-user").length + (toString count).length
        + (toString severity).length + 31 := by
  have h : " alerts, max_severity=".length = 22 := rfl
  simp only [buildEventTitle, String.length_append, h, show "[".length = 1 from rfl,
    show "] ".length = 2 from rfl, show " / ".length = 3 from rfl, show " (".length = 2 from rfl,
    show ")".length = 1 from rfl]
  omega

theorem isPrintable_of_isDigit {ch : Char} (h : ch.isDigit = true) : isPrintable ch = true := by
  simp only [Char.isDigit, Bool.and_eq_true, decide_eq_true_eq, ge_iff_le] at h
  have hlow : 48 ≤ ch.toNat := h.1
  have hhigh : ch.toNat ≤ 57 := h.2
  simp only [isPrintable, Bool.and_eq_true, decide_eq_true_eq]
  omega

theorem printable_toString (n : ℕ) : (toString n).toList.all isPrintable = true := by
  rw [List.all_eq_true]
  intro ch hch
  apply isPrintable_of_isDigit
  exact Nat.isDigit_of_mem_toDigits (by decide) (by decide) (Nat.toList_repr ▸ hch)

theorem printable_toString_int (n : ℤ) : (toString n).toList.all isPrintable = true := by
  cases n with
  | ofNat n => exact printable_toString n
  | negSucc n =>
    have h : toString (Int.negSucc n) = "-" ++ toString (n + 1) := rfl
    rw [h, String.toList_append, List.all_append, printable_toString]
    rfl

namespace TextColumns

variable (h : TextColumns c rt)

include h

/-- A label of the title is a text that was stored, or one that the program writes. -/
theorem text_orText {label : Option String} {default : String} {n : ℕ}
    (hlabel : label.all (c.varchar n) = true) (hdefault : default.toList.all isPrintable = true) :
    c.text (orText label default) = true := by
  cases label with
  | none => exact h.ascii default hdefault
  | some s =>
    simp only [Option.all_some, Columns.varchar, Bool.and_eq_true] at hlabel
    unfold orText
    dsimp only
    split
    · exact h.ascii default hdefault
    · exact hlabel.2

theorem text_buildEventTitle {category hostName userName : Option String} {n m k : ℕ}
    (hcategory : category.all (c.varchar n) = true) (hhost : hostName.all (c.varchar m) = true)
    (huser : userName.all (c.varchar k) = true) (count : ℕ) (severity : ℤ) :
    c.text (buildEventTitle category hostName userName count severity) = true := by
  have hfixed : ∀ s ∈ ["[", "] ", " / ", " (", " alerts, max_severity=", ")"], c.text s = true := by
    have hall : (["[", "] ", " / ", " (", " alerts, max_severity=", ")"].all
      fun s => s.toList.all isPrintable) = true := by decide
    exact fun s hs => h.ascii s (List.all_eq_true.mp hall s hs)
  simp only [List.forall_mem_cons] at hfixed
  obtain ⟨h₁, h₂, h₃, h₄, h₅, h₆, -⟩ := hfixed
  simp only [buildEventTitle, h.append, h₁, h₂, h₃, h₄, h₅, h₆,
    h.text_orText hcategory (show "uncategorized".toList.all isPrintable = true by decide),
    h.text_orText hhost (show "unknown-host".toList.all isPrintable = true by decide),
    h.text_orText huser (show "unknown-user".toList.all isPrintable = true by decide),
    h.ascii _ (printable_toString count), h.ascii _ (printable_toString_int severity),
    Bool.and_self]

theorem varchar_takeText (s : String) :
    c.varchar 128 (takeText 32 (rt.sha256Hex s)) = true := by
  have hchars := List.all_eq_true.mp (h.digest s)
  simp only [Columns.varchar, Bool.and_eq_true, decide_eq_true_eq]
  constructor
  · simp only [takeText, String.length_ofList, List.length_take]
    omega
  · apply h.ascii
    simp only [takeText, String.toList_ofList, List.all_eq_true]
    exact fun ch hch => hchars ch (List.mem_of_mem_take hch)

/-- The row of an event with an alert added to it fits exactly when there is room for the title. -/
theorem fits_updateEventStats {alert : Alert} {triage : TriageResult} {severity : ℤ}
    {event : Event} (hevent : event.fits c = true) :
    (updateEventStats alert triage severity event).fits c = true ↔ TitleRoom event severity := by
  simp only [Event.fits, Bool.and_eq_true] at hevent
  obtain ⟨⟨⟨⟨⟨⟨⟨⟨hkey, -⟩, hprimary⟩, -⟩, hpriority⟩, hhost⟩, huser⟩, hcategory⟩, hcorrelation⟩ :=
    hevent
  have htitle : c.varchar 512 (buildEventTitle event.aggregateCategory event.aggregateHostName
      event.aggregateUserName (event.alertCount + 1) severity) = true ↔
      (orText event.aggregateCategory "uncategorized").length
        + (orText event.aggregateHostName "unknown-host").length
        + (orText event.aggregateUserName "unknown-user").length
        + (toString (event.alertCount + 1)).length + (toString severity).length + 31 ≤ 512 := by
    rw [Columns.varchar, h.text_buildEventTitle hcategory hhost huser, Bool.and_true,
      decide_eq_true_eq, length_buildEventTitle]
  have hqueue : isInt32 (max event.queuePriority (routePriority triage.routeDecision)) = true := by
    simp only [isInt32, Bool.and_eq_true, decide_eq_true_eq] at hpriority ⊢
    have hroute : 0 ≤ routePriority triage.routeDecision ∧
        routePriority triage.routeDecision ≤ 10 := by
      cases triage.routeDecision <;> decide
    omega
  have hcount : isInt32 ((event.alertCount + 1 : ℕ) : ℤ) = true ↔
      event.alertCount + 1 ≤ 2147483647 := by
    simp only [isInt32, Bool.and_eq_true, decide_eq_true_eq]
    omega
  simp only [Event.fits, updateEventStats, hkey, hprimary, hqueue, hhost, huser, hcategory,
    hcorrelation, Bool.and_true, Bool.true_and, Option.all_some, Bool.and_eq_true, htitle, hcount,
    TitleRoom]

theorem fits_newEvent {config : AggregationConfig} {alert : Alert} {dims : AggregationDimensions}
    {createdAt : Time} (halert : alert.fits c = true)
    (hdims : normalizeDimensions rt config alert.hostName alert.userName alert.alertCategory
      alert.occurredAt = .ok dims) : (newEvent alert dims createdAt).fits c = true := by
  have hkey : c.varchar 128 dims.eventKey = true := by
    obtain ⟨windowStart, -, hdims⟩ := except_bind_ok.mp hdims
    rw [← Except.ok.inj hdims]
    exact h.varchar_takeText _
  simp only [Alert.fits, Alert.accepted, Bool.and_eq_true] at halert
  simp [Event.fits, newEvent, hkey, isInt32, halert]

end TextColumns

/-- Linking an alert to an event keeps the constraints exactly when there is room for the title. -/
theorem constrained_recordLink {eventId : ℕ} {event : Event} {now : Time} {severity : ℤ}
    (h : TextColumns c rt) (hdb : db.constrained c = true)
    (hevent : db.events[eventId]? = some event) (hitem : item.alertId < db.alerts.length)
    (hfresh : ∀ l ∈ db.eventAlerts, l.alertId ≠ item.alertId) :
    (recordLink item eventId now severity db).constrained c = true ↔ TitleRoom event severity := by
  rw [constrained_iff] at hdb ⊢
  obtain ⟨halerts, hevents, hlinks, hunique⟩ := hdb
  have hfits : (updateEventStats item.alert item.triage severity event).fits c = true ↔
      TitleRoom event severity :=
    h.fits_updateEventStats (hevents event (List.mem_of_getElem? hevent))
  constructor
  · rintro ⟨-, hevents', -⟩
    rw [← hfits]
    apply hevents'
    exact List.mem_of_getElem? (Rows.getElem?_update.mpr (.inl ⟨rfl, event, hevent, rfl⟩))
  · intro hroom
    refine ⟨fun a ha => ?_, fun e he => ?_, fun l hl => ?_, ?_⟩
    · rcases Rows.mem_update ha with ha | ⟨old, hold, rfl⟩
      · exact halerts a ha
      · exact halerts old hold
    · obtain ⟨j, hj⟩ := List.mem_iff_getElem?.mp he
      rcases Rows.getElem?_update.mp hj with ⟨rfl, old, hold, rfl⟩ | ⟨-, hother⟩
      · obtain rfl : event = old := Option.some.inj (hevent.symm.trans hold)
        exact hfits.mpr hroom
      · exact hevents e (List.mem_of_getElem? hother)
    · simp only [recordLink, List.mem_append, List.mem_singleton, List.length_modify] at hl ⊢
      rcases hl with hl | rfl
      · exact hlinks l hl
      · exact ⟨Rows.lt_of_getElem? hevent, hitem⟩
    · simp only [recordLink, List.map_append, List.map_singleton]
      apply List.nodup_append.mpr
      simpa [hunique] using hfresh

theorem eventFor_ok {itemEnv : AggregationEnv} (hfaults : ∀ p, itemEnv.faults p = none)
    (rt : Runtime) (tie : ℕ → ℕ) (alert : Alert) (dims : AggregationDimensions) (w : World) :
    ∃ target w', exec (eventFor rt itemEnv tie alert dims) w = (.ok target, w') := by
  simp only [eventFor, hfaults, Tx.fallible, exec_bind_pure, exec_query_bind]
  split
  · exact ⟨_, _, rfl⟩
  · simp only [exec_utcNow_bind]
    exact ⟨_, _, rfl⟩

/-- An alert that is linked to nothing is aggregated, unless something outside fails. -/
theorem aggregateOne_ok {config : AggregationConfig} {itemEnv : AggregationEnv} {tie : ℕ → ℕ}
    {dims : AggregationDimensions} (hfaults : ∀ p, itemEnv.faults p = none)
    (hdims : normalizeDimensions rt config item.alert.hostName item.alert.userName
      item.alert.alertCategory item.alert.occurredAt = .ok dims)
    (hfresh : ∀ l ∈ w.db.eventAlerts, l.alertId ≠ item.alertId) :
    ∃ created w', exec (aggregateOne rt config itemEnv tie item) w = (.ok created, w') := by
  simp only [aggregateOne, exec_utcNow_bind, hdims]
  obtain ⟨⟨eventId, created⟩, w₁, hfor⟩ := eventFor_ok hfaults rt tie item.alert dims
    { w with out := { w.out with clock := rt.clock.reading w.out.clock itemEnv.now } }
  obtain ⟨events, -, hdb⟩ := eventFor_chosen hfor
  have hlinked : (w₁.db.eventAlerts.any fun l => l.alertId == item.alertId) = false := by
    simpa [hdb] using hfresh
  rw [exec_bind_of_ok hfor]
  simp only [hfaults, Tx.fallible, exec_bind_pure, exec_query_bind, hlinked, Bool.false_eq_true,
    if_false, exec_modify_bind]
  exact ⟨_, _, rfl⟩

theorem normalizeDimensions_default (rt : Runtime) (alert : Alert) :
    ∃ dims, normalizeDimensions rt {} alert.hostName alert.userName alert.alertCategory
      alert.occurredAt = .ok dims := ⟨_, rfl⟩

/-- An alert that is fetched is a row of its table with a queue route and no link. -/
theorem mem_fetchPending {tie : ℕ → ℕ} {n : ℕ} (h : item ∈ fetchPending tie n db) :
    db.alerts[item.alertId]? = some item.alert ∧ item.alert.status = .triaged ∧
      ∀ l ∈ db.eventAlerts, l.alertId ≠ item.alertId := by
  have hmem := Rows.mem_of_mem_orderLimit h
  simp only [List.mem_flatMap, Prod.exists, Rows.mem_select, List.mem_map, List.mem_filter,
    Bool.and_eq_true, beq_iff_eq, Bool.not_eq_true', List.any_eq_false] at hmem
  obtain ⟨i, a, ⟨ha, hstatus, hfresh⟩, t, -, rfl⟩ := hmem
  exact ⟨ha, hstatus, hfresh⟩

/-- The event an alert may be merged into or that is created for it, before the alert counts. -/
theorem EventChosen.row {tie : ℕ → ℕ} {alert : Alert} {dims : AggregationDimensions}
    {events : Rows Event} {eventId : ℕ} (h : EventChosen tie alert dims db.events eventId events) :
    ∃ event, events[eventId]? = some event := by
  cases h with
  | merged target =>
    exact ⟨_, (Rows.mem_select.mp (findMergeTarget_some target).1).1⟩
  | created createdAt => exact ⟨_, Rows.getElem?_insert.mpr (.inr ⟨rfl, rfl⟩)⟩

/-- A query finds one event to merge into, so the choice is made up to the time of creation. -/
theorem EventChosen.unique {tie : ℕ → ℕ} {alert : Alert} {dims : AggregationDimensions}
    {events events' : Rows Event} {i j : ℕ} {event event' : Event}
    (h : EventChosen tie alert dims db.events i events)
    (h' : EventChosen tie alert dims db.events j events') (hevent : events[i]? = some event)
    (hevent' : events'[j]? = some event') (severity : ℤ) :
    i = j ∧ (TitleRoom event severity ↔ TitleRoom event' severity) := by
  cases h with
  | merged target =>
    cases h' with
    | merged target' =>
      obtain ⟨rfl, -⟩ := Prod.mk.inj (Option.some.inj (target.symm.trans target'))
      obtain rfl := Option.some.inj (hevent.symm.trans hevent')
      exact ⟨rfl, Iff.rfl⟩
    | created createdAt target' => cases target.symm.trans target'
  | created createdAt target =>
    cases h' with
    | merged target' => cases target.symm.trans target'
    | created createdAt' target' =>
      rw [List.getElem?_concat_length] at hevent hevent'
      obtain rfl := Option.some.inj hevent
      obtain rfl := Option.some.inj hevent'
      exact ⟨rfl, Iff.rfl⟩

/-- What one alert writes keeps the constraints exactly when there is room for the title. -/
theorem constrained_of_linked {tie : ℕ → ℕ} {config : AggregationConfig} {db' : Db}
    {dims : AggregationDimensions} {eventId : ℕ} {events : Rows Event} {event : Event}
    (hcolumns : TextColumns c rt) (hdb : db.constrained c = true)
    (halert : db.alerts[item.alertId]? = some item.alert)
    (hdims : normalizeDimensions rt config item.alert.hostName item.alert.userName
      item.alert.alertCategory item.alert.occurredAt = .ok dims)
    (hchosen : EventChosen tie item.alert dims db.events eventId events)
    (hevent : events[eventId]? = some event) (hlinked : Linked rt config tie item db db') :
    db'.constrained c = true ↔
      TitleRoom event (maxSeverityForEvent db eventId item.alert.severity) := by
  obtain ⟨dims', eventId', events', now, hdims', hfresh, hchosen', rfl⟩ := hlinked
  obtain rfl := Except.ok.inj (hdims.symm.trans hdims')
  obtain ⟨event', hevent'⟩ := hchosen'.row
  obtain ⟨rfl, hroom⟩ := hchosen.unique hchosen' hevent hevent'
    (maxSeverityForEvent db eventId item.alert.severity)
  rw [hroom]
  -- the tables satisfy their constraints with the event in place
  have hdb' : Db.constrained c { db with events := events' } = true := by
    rw [constrained_iff] at hdb ⊢
    obtain ⟨halerts, hevents, hlinks, hunique⟩ := hdb
    cases hchosen' with
    | merged target => exact ⟨halerts, hevents, hlinks, hunique⟩
    | created createdAt target =>
      refine ⟨halerts, fun e he => ?_, fun l hl => ?_, hunique⟩
      · rcases List.mem_append.mp he with he | he
        · exact hevents e he
        · rw [List.mem_singleton.mp he]
          exact hcolumns.fits_newEvent (halerts _ (List.mem_of_getElem? halert)) hdims
      · obtain ⟨he, ha⟩ := hlinks l hl
        simp only [List.length_append, List.length_singleton]
        exact ⟨by omega, ha⟩
  exact constrained_recordLink hcolumns hdb' hevent' (Rows.lt_of_getElem? halert) hfresh

/-- The rows written for a pending alert are taken exactly when there is room for the title. -/
theorem constrained_aggregateOne {config : AggregationConfig} {n eventId : ℕ}
    {dims : AggregationDimensions} {events : Rows Event} {event : Event}
    (hcolumns : TextColumns c rt) (hdb : w.db.constrained c = true)
    (hitem : item ∈ fetchPending env.tie n w.db)
    (hfaults : ∀ p, (env.items item.alertId).faults p = none)
    (hdims : normalizeDimensions rt config item.alert.hostName item.alert.userName
      item.alert.alertCategory item.alert.occurredAt = .ok dims)
    (hchosen : EventChosen env.tie item.alert dims w.db.events eventId events)
    (hevent : events[eventId]? = some event) :
    ∃ created w',
      exec (aggregateOne rt config (env.items item.alertId) env.tie item) w = (.ok created, w') ∧
      Linked rt config env.tie item w.db w'.db ∧
      (w'.db.constrained c = true ↔
        TitleRoom event (maxSeverityForEvent w.db eventId item.alert.severity)) := by
  obtain ⟨halert, -, hfresh⟩ := mem_fetchPending hitem
  obtain ⟨created, w', hone⟩ := aggregateOne_ok hfaults hdims hfresh
  have hlinked := aggregateOne_linked hone
  exact ⟨created, w', hone, hlinked,
    constrained_of_linked hcolumns hdb halert hdims hchosen hevent hlinked⟩

/-- The rows written for the alert are taken, and it does not wait for aggregation any more. -/
structure AcceptsAlert (c : Columns) (rt : Runtime) (env : AggregationRunEnv) (w : World)
    (item : PendingAlert) : Prop where
  written : (exec (aggregateOne rt {} (env.items item.alertId) env.tie item) w).2.db.constrained c =
    true
  settled : ∀ tie n,
    ∀ p ∈ fetchPending tie n (exec ((constrainedLoop c rt {} env).run [item] {}) w).2.db,
      p.alertId ≠ item.alertId

/-- The turn of an alert that leaves the tables constrained keeps what was written. -/
theorem exec_turn_accepted {created : Bool}
    (hfaults : ∀ p, (env.items item.alertId).faults p = none)
    (hone : exec (aggregateOne rt {} (env.items item.alertId) env.tie item) w = (.ok created, w'))
    (hdb : w'.db.constrained c = true) :
    (exec ((constrainedLoop c rt {} env).run [item] {}) w).2 = w' := by
  have hbody : exec ((constrainedLoop c rt {} env).body item) w = (.ok created, w') := by
    simp [constrainedLoop, exec_bind_of_ok hone, checkConstraints, hdb, hfaults, Tx.fallible]
  rw [Loop.exec_run_ok hbody]
  rfl

theorem exec_turn_refused {created : Bool}
    (hone : exec (aggregateOne rt {} (env.items item.alertId) env.tie item) w = (.ok created, w'))
    (hdb : w'.db.constrained c = false) :
    (exec ((constrainedLoop c rt {} env).run [item] {}) w).2.db = w.db := by
  have hbody : exec ((constrainedLoop c rt {} env).body item) w = (.error .statement, w') := by
    simp [constrainedLoop, exec_bind_of_ok hone, checkConstraints, hdb]
  cases hexpired : (constrainedLoop c rt {} env).expired with
  | none =>
    rw [Loop.exec_run_error hbody hexpired]
    rfl
  | some e =>
    rw [Loop.exec_run_expired hbody hexpired]
    rfl

/--
Aggregation accepts an alert exactly when there is room for the title of the event it goes to;
an alert it does not accept leaves the database as it was, and is fetched again.
-/
theorem aggregation_accepts_iff {n eventId : ℕ} {dims : AggregationDimensions}
    {events : Rows Event} {event : Event} {severity : ℤ} (hcolumns : TextColumns c rt)
    (hdb : w.db.constrained c = true) (hitem : item ∈ fetchPending env.tie n w.db)
    (hfaults : ∀ p, (env.items item.alertId).faults p = none)
    (hdims : normalizeDimensions rt {} item.alert.hostName item.alert.userName
      item.alert.alertCategory item.alert.occurredAt = .ok dims)
    (hchosen : EventChosen env.tie item.alert dims w.db.events eventId events)
    (hevent : events[eventId]? = some event)
    (hseverity : IsGreatest
      (insert item.alert.severity (AlertFacts.severity '' linkedFacts w.db eventId)) severity) :
    (AcceptsAlert c rt env w item ↔ TitleRoom event severity) ∧
      (¬TitleRoom event severity →
        (exec ((constrainedLoop c rt {} env).run [item] {}) w).2.db = w.db) := by
  obtain rfl := (isGreatest_maxSeverityForEvent w.db eventId item.alert.severity).unique hseverity
  obtain ⟨created, w', hone, hlinked, hroom⟩ :=
    constrained_aggregateOne hcolumns hdb hitem hfaults hdims hchosen hevent
  constructor
  · constructor
    · intro haccepts
      have hwritten := haccepts.written
      rw [hone] at hwritten
      exact hroom.mp hwritten
    · intro htitle
      constructor
      · rw [hone]
        exact hroom.mpr htitle
      · intro tie' n' p hp
        rw [exec_turn_accepted hfaults hone (hroom.mpr htitle)] at hp
        -- a fetched alert has no link, and this one has just got its own
        obtain ⟨-, -, hunlinked⟩ := mem_fetchPending hp
        obtain ⟨_, eventId', _, now, -, -, -, hdb'⟩ := hlinked
        refine Ne.symm (hunlinked ⟨eventId', item.alertId, now⟩ ?_)
        rw [hdb']
        exact List.mem_append_right _ (List.mem_singleton_self _)
  · intro htitle
    apply exec_turn_refused hone
    rw [← Bool.not_eq_true]
    exact mt hroom.mp htitle

end

/-- A runtime in which the sample alert has its digest. -/
def digestRuntime (digest : String) : Runtime :=
  { sampleRuntime .free [] with sha256Hex := fun _ => digest }

theorem textColumns_sample {digest : String} (h : digest.toList.all isPrintable = true) :
    TextColumns sampleColumns (digestRuntime digest) where
  append s t := by simp [sampleColumns]
  ascii s hs := by
    simp only [sampleColumns, List.all_eq_true, decide_eq_true_eq] at hs ⊢
    rintro ch hch rfl
    exact absurd (hs _ hch) (by decide)
  digest _ := h

/-- A triaged alert of a host and a user, queued for review. -/
def queuedItem (hostName userName : Option String) : PendingAlert where
  alertId := 0
  alert := { dataSourceId := 0, sourceAlertId := "a-1", fingerprint := "f-1", occurredAt := 7,
             ingestedAt := 10, hostName, userName, status := .triaged }
  triage := { alertId := 0, ruleScore := 3, routeDecision := .queueUncertain, triagedAt := 20 }

/-- A run that nothing outside disturbs. -/
def quietRun : AggregationRunEnv where
  items _ := { now := 30 }

def arrivedWorld (item : PendingAlert) : World where
  db := { alerts := [item.alert], triageResults := [item.triage] }

/-- Names of 250 characters are stored with the alert, and too long for the title together. -/
def longNames : PendingAlert :=
  queuedItem (some (String.ofList (List.replicate 250 'h')))
    (some (String.ofList (List.replicate 250 'u')))

theorem varchar_replicate {n k : ℕ} {ch : Char} (hn : n ≤ k) (hch : ch ≠ '\x00') :
    sampleColumns.varchar k (String.ofList (List.replicate n ch)) = true := by
  simp [Columns.varchar, sampleColumns, hn, hch]

theorem length_orText_replicate {n : ℕ} (hn : n ≠ 0) (ch : Char) (default : String) :
    (orText (some (String.ofList (List.replicate n ch))) default).length = n := by
  have hne : String.ofList (List.replicate n ch) ≠ "" := by
    intro h
    have hlength := congrArg String.length h
    simp at hlength
    exact hn hlength
  rw [orText, if_neg hne, String.length_ofList, List.length_replicate]

theorem arrivedWorld_constrained {hostName userName : Option String}
    (hhost : hostName.all (sampleColumns.varchar 256) = true)
    (huser : userName.all (sampleColumns.varchar 256) = true) :
    (arrivedWorld (queuedItem hostName userName)).db.constrained sampleColumns = true := by
  have hfits : (queuedItem hostName userName).alert.fits sampleColumns = true := by
    simp only [Alert.fits, Alert.encodes, Alert.accepted, queuedItem, hhost, huser]
    decide
  refine constrained_iff.mpr ⟨List.forall_mem_singleton.mpr hfits, ?_, ?_, .nil⟩
  · exact fun e he => absurd he List.not_mem_nil
  · exact fun l hl => absurd hl List.not_mem_nil

theorem longNames_constrained : (arrivedWorld longNames).db.constrained sampleColumns = true := by
  have hname {ch : Char} (hch : ch ≠ '\x00') :
      (some (String.ofList (List.replicate 250 ch))).all (sampleColumns.varchar 256) = true := by
    rw [Option.all_some]
    exact varchar_replicate (by decide) hch
  exact arrivedWorld_constrained (hname (by decide)) (hname (by decide))
theorem aggregation_accepts_nameless :
    AcceptsAlert sampleColumns
      (digestRuntime "767ec2b83b4866005499a20e4586ded1f3a0d05fef468162ac8e8e7b2cf92de9")
      quietRun (arrivedWorld (queuedItem none none))
      (queuedItem none none) := by
  have hcolumns := textColumns_sample (show
    "767ec2b83b4866005499a20e4586ded1f3a0d05fef468162ac8e8e7b2cf92de9".toList.all isPrintable =
      true by decide)
  have hpending : queuedItem none none ∈
      fetchPending id 500 (arrivedWorld (queuedItem none none)).db :=
    List.mem_singleton_self _
  apply (aggregation_accepts_iff hcolumns (by decide) hpending (fun _ => rfl) rfl
    (.created 30 rfl) rfl
    (isGreatest_maxSeverityForEvent (arrivedWorld (queuedItem none none)).db 0 3)).1.mpr
  decide

theorem long_names_are_refused :
    (arrivedWorld longNames).db.constrained sampleColumns = true ∧
    longNames ∈ fetchPending id 500 (arrivedWorld longNames).db ∧
    ¬AcceptsAlert sampleColumns
      (digestRuntime "9bb5720d84a38f084d652f9331f7940eecb92303cbb07d5f07f4d68ceca8e6f4")
      quietRun (arrivedWorld longNames) longNames := by
  have hcolumns := textColumns_sample (show
    "9bb5720d84a38f084d652f9331f7940eecb92303cbb07d5f07f4d68ceca8e6f4".toList.all isPrintable =
      true by decide)
  have hpending : longNames ∈ fetchPending id 500 (arrivedWorld longNames).db :=
    List.mem_singleton_self _
  have hlength {ch : Char} {default : String} : (orText
      (some (String.ofList (List.replicate 250 ch))) default).length = 250 :=
    length_orText_replicate (by decide) ch default
  refine ⟨longNames_constrained, hpending, fun haccepts => ?_⟩
  obtain ⟨dims, hdims⟩ := normalizeDimensions_default _ longNames.alert
  have hquiet : ∀ p, (quietRun.items longNames.alertId).faults p = none := fun _ => rfl
  obtain ⟨created, w', hone, -, hroom⟩ :=
    constrained_aggregateOne hcolumns longNames_constrained hpending hquiet hdims (.created 30 rfl)
      rfl
  have hwritten := haccepts.written
  rw [hone] at hwritten
  obtain ⟨htitle, -⟩ := hroom.mp hwritten
  simp only [newEvent, longNames, queuedItem, hlength] at htitle
  omega

end Minsight

import Mathlib.Algebra.Order.Ring.Rat
import Minsight.Foundation.Pages
import Minsight.Foundation.Text
import Minsight.Model.World

/-! # The list of events

`list_events` counts the matching events and reads one page of them. No sort option tells all
events apart, and every page is a query of its own.
-/

namespace Minsight

open Rows

inductive EventSort
  | concludedAt | investigationFinishedAt | humanReviewSentAt | riskScore | queuePriority
  | lastAlertAt
  deriving DecidableEq, Repr

inductive SortOrder
  | asc | desc
  deriving DecidableEq, Repr

structure EventQuery where
  status : Option EventStatus := none
  category : Option String := none
  page : ℕ := 1
  pageSize : ℕ := 20
  sortBy : Option EventSort := none
  sortOrder : SortOrder := .desc

structure EventRow where
  id : ℕ
  event : Event
  investigationFinishedAt : Option Time
  humanReviewSentAt : Option Time

/-- `latest_inv` -/
def investigationFinishedAt (db : Db) (eventId : ℕ) : Option Time :=
  ((db.investigations.filter (·.eventId = eventId)).filterMap (·.finishedAt)).max?

/-- `active_hr` -/
def humanReviewSentAt (db : Db) (eventId : ℕ) : Option Time :=
  ((db.requests.filter fun r => r.eventId = eventId ∧ r.status = .sent).filterMap (·.sentAt)).max?

section

variable (q : EventQuery)

/-- An event passes the filters; an empty category filters nothing. -/
def EventQuery.admits (event : Event) : Bool :=
  q.status.all (event.status = ·) &&
    (truthyText q.category).all fun category => event.primaryCategory = some category

def eventRows (db : Db) : List EventRow :=
  (db.events.select fun _ event => q.admits event).map fun r => {
    id := r.1
    event := r.2
    investigationFinishedAt := investigationFinishedAt db r.1
    humanReviewSentAt := humanReviewSentAt db r.1 }

/-- `sort_by` and `sort_order`, where nothing was asked for also by the status. -/
def EventQuery.sorting : Option EventSort × SortOrder :=
  match q.sortBy, q.status with
  | none, some .concluded => (some .concludedAt, .desc)
  | none, some .closed => (some .concludedAt, .desc)
  | none, some .humanPending => (some .humanReviewSentAt, .desc)
  | sortBy, _ => (sortBy, q.sortOrder)

end

def directed {β : Type} [LinearOrder β] (order : SortOrder) (key : EventRow → β) :
    EventRow → EventRow → Prop :=
  match order with
  | .asc => asc key
  | .desc => desc key

/-- A nullable column in either order, `NULLS LAST`. -/
def nullsLast (order : SortOrder) (key : EventRow → Option Time) : EventRow → EventRow → Prop :=
  match order with
  | .asc => asc (nullHigh ∘ key)
  | .desc => desc (nullLow ∘ key)

def eventOrder : Option EventSort × SortOrder → EventRow → EventRow → Prop
  | (some .humanReviewSentAt, order) =>
    thenBy (nullsLast order (·.humanReviewSentAt)) (nullsLast .desc (·.investigationFinishedAt))
  | (some .concludedAt, order) => nullsLast order (·.investigationFinishedAt)
  | (some .investigationFinishedAt, order) => nullsLast order (·.investigationFinishedAt)
  | (some .lastAlertAt, order) => nullsLast order (·.event.lastAlertAt)
  | (some .riskScore, order) => directed order (·.event.riskScore)
  | (some .queuePriority, order) => directed order (·.event.queuePriority)
  | (none, _) =>
    thenBy (desc (·.event.queuePriority)) (thenBy (desc (·.event.riskScore))
      (asc (nullHigh ∘ (·.event.lastAlertAt))))

section

variable {β : Type} [LinearOrder β] {order : SortOrder}

instance {key : EventRow → β} : DecidableRel (directed order key) :=
  match order with
  | .asc => inferInstanceAs (DecidableRel (asc key))
  | .desc => inferInstanceAs (DecidableRel (desc key))

instance {key : EventRow → Option Time} : DecidableRel (nullsLast order key) :=
  match order with
  | .asc => inferInstanceAs (DecidableRel (asc (nullHigh ∘ key)))
  | .desc => inferInstanceAs (DecidableRel (desc (nullLow ∘ key)))

instance : ∀ sorting, DecidableRel (eventOrder sorting)
  | (some .humanReviewSentAt, _) => inferInstanceAs (DecidableRel (thenBy _ _))
  | (some .concludedAt, _) => inferInstanceAs (DecidableRel (nullsLast _ _))
  | (some .investigationFinishedAt, _) => inferInstanceAs (DecidableRel (nullsLast _ _))
  | (some .lastAlertAt, _) => inferInstanceAs (DecidableRel (nullsLast _ _))
  | (some .riskScore, _) => inferInstanceAs (DecidableRel (directed _ _))
  | (some .queuePriority, _) => inferInstanceAs (DecidableRel (directed _ _))
  | (none, _) => inferInstanceAs (DecidableRel (thenBy _ _))

instance {key : EventRow → β} : Std.Total (directed order key) := by
  cases order with
  | asc => exact inferInstanceAs (Std.Total (asc key))
  | desc => exact inferInstanceAs (Std.Total (desc key))

instance {key : EventRow → β} : IsTrans EventRow (directed order key) := by
  cases order with
  | asc => exact inferInstanceAs (IsTrans EventRow (asc key))
  | desc => exact inferInstanceAs (IsTrans EventRow (desc key))

instance {key : EventRow → Option Time} : Std.Total (nullsLast order key) := by
  cases order with
  | asc => exact inferInstanceAs (Std.Total (asc (nullHigh ∘ key)))
  | desc => exact inferInstanceAs (Std.Total (desc (nullLow ∘ key)))

instance {key : EventRow → Option Time} : IsTrans EventRow (nullsLast order key) := by
  cases order with
  | asc => exact inferInstanceAs (IsTrans EventRow (asc (nullHigh ∘ key)))
  | desc => exact inferInstanceAs (IsTrans EventRow (desc (nullLow ∘ key)))

instance (sorting : Option EventSort × SortOrder) : Std.Total (eventOrder sorting) := by
  unfold eventOrder
  split <;> infer_instance

instance (sorting : Option EventSort × SortOrder) : IsTrans EventRow (eventOrder sorting) := by
  unfold eventOrder
  split <;> infer_instance

end

structure EventItem where
  id : ℕ
  title : Option String
  status : EventStatus
  primaryCategory : Option String
  queuePriority : ℤ
  riskScore : ℚ
  alertCount : ℕ
  lastAlertAt : Option Time
  concludedAt : Option Time
  investigationFinishedAt : Option Time
  humanReviewSentAt : Option Time
  humanReviewQuestion : Option String
  humanReviewDispatched : Bool
  humanReviewIsSystemError : Bool
  aggregateHostName : Option String
  aggregateUserName : Option String

/-- `is_system_error_human_query` -/
def isSystemErrorHumanQuery (question : String) : Bool :=
  ["llm error", "404 not found", "自动调查未完成"].any (occursIn · question.toLower)

/-- `_active_human_review_by_event_ids`, for one event: the question that was sent last. -/
def activeHumanReview (tie : ℕ → ℕ) (db : Db) (eventId : ℕ) : String :=
  let sent := db.requests.select fun _ r =>
    decide (r.eventId = eventId) && decide (r.status = .sent)
  match orderLimit (descending (fun r => nullLow r.2.sentAt) fun r => tie r.1) 1 sent with
  | [] => ""
  | r :: _ => r.2.question

def questionPreview (question : String) : Option String :=
  let preview := strip question
  truthyText (some (if 120 < preview.length then takeText 117 preview ++ "..." else preview))

def eventItem (row : EventRow) (question : String) : EventItem where
  id := row.id
  title := row.event.title
  status := row.event.status
  primaryCategory := row.event.primaryCategory
  queuePriority := row.event.queuePriority
  riskScore := row.event.riskScore
  alertCount := row.event.alertCount
  lastAlertAt := row.event.lastAlertAt
  concludedAt := row.investigationFinishedAt
  investigationFinishedAt := row.investigationFinishedAt
  humanReviewSentAt := row.humanReviewSentAt
  humanReviewQuestion := questionPreview question
  humanReviewDispatched := row.humanReviewSentAt.isSome
  humanReviewIsSystemError := isSystemErrorHumanQuery question
  aggregateHostName := row.event.aggregateHostName
  aggregateUserName := row.event.aggregateUserName

structure EventPage where
  items : List EventItem
  total : ℕ
  page : ℕ
  pageSize : ℕ

/-- The order in which one query finds events, and requests, that its `ORDER BY` does not tell
apart. -/
structure ListTies where
  events : ℕ → ℕ := id
  requests : ℕ → ℕ := id

def listEvents (ties : ListTies) (db : Db) (q : EventQuery) : EventPage where
  items := (orderPage (arranged (eventOrder q.sorting) EventRow.id ties.events) q.pageSize q.page
    (eventRows q db)).map fun row => eventItem row (activeHumanReview ties.requests db row.id)
  total := (db.events.filter q.admits).length
  page := q.page
  pageSize := q.pageSize

/-- The events on all pages of a list, each page with ties of its own. -/
def listedEvents (ties : ℕ → ListTies) (db : Db) (q : EventQuery) : List ℕ :=
  (List.range' 1 (pageCount q.pageSize (listEvents (ties 0) db q).total)).flatMap fun page =>
    (listEvents (ties page) db { q with page := page }).items.map (·.id)

/-- The events that match. -/
def matchingEvents (db : Db) (q : EventQuery) : List ℕ :=
  (db.events.select fun _ event => q.admits event).map Prod.fst

/-- The places that the order leaves to an event are all on one page. -/
def TiesOnOnePage (db : Db) (q : EventQuery) : Prop :=
  ∀ row ∈ eventRows q db,
    firstPlace (eventOrder q.sorting) (eventRows q db) row / q.pageSize =
      lastPlace (eventOrder q.sorting) (eventRows q db) row / q.pageSize

instance (db : Db) (q : EventQuery) : Decidable (TiesOnOnePage db q) :=
  inferInstanceAs (Decidable (∀ row ∈ eventRows q db, _))

section

variable {db : Db} {q : EventQuery} {ties : ℕ → ListTies}

theorem matchingEvents_eq : (eventRows q db).map (·.id) = matchingEvents db q := by
  rw [eventRows, List.map_map]
  rfl

theorem total_eq (t : ListTies) : (listEvents t db q).total = (eventRows q db).length := by
  have hrows : (db.events.select fun _ event => q.admits event).map Prod.snd =
      db.events.filter q.admits := by
    have hsnd : (db.events.zipIdx.map Prod.swap).map Prod.snd = db.events := by
      rw [List.map_map]
      exact List.zipIdx_map_fst 0 db.events
    conv_rhs => rw [← hsnd, List.filter_map]
    rfl
  rw [eventRows, List.length_map, ← List.length_map Prod.snd, hrows]
  rfl

theorem listedEvents_eq : listedEvents ties db q =
    (allPages (eventOrder q.sorting) EventRow.id (fun page => (ties page).events) q.pageSize
      (eventRows q db)).map (·.id) := by
  rw [listedEvents, total_eq, allPages, List.map_flatMap]
  refine List.flatMap_congr fun page _ => ?_
  rw [listEvents, List.map_map]
  rfl

/--
The pages of the list hold every matching event exactly once, whatever order each query finds
for equal rows, exactly if no equal rows have places on different pages.
-/
theorem listEvents_partition_iff (hsize : 0 < q.pageSize) :
    (∀ ties, (listedEvents ties db q).Perm (matchingEvents db q)) ↔ TiesOnOnePage db q := by
  have hnodup : ((eventRows q db).map (·.id)).Nodup := by
    rw [matchingEvents_eq]
    exact select_keys_nodup _ _
  rw [TiesOnOnePage, ← allPages_perm_iff hnodup hsize]
  constructor
  · intro hperm tie
    have h := hperm fun page => { events := tie page }
    rw [listedEvents_eq, ← matchingEvents_eq] at h
    exact h
  · intro hperm ties
    rw [listedEvents_eq, ← matchingEvents_eq]
    exact hperm fun page => (ties page).events

end

def twinEvents : Db where
  events := [
    { eventKey := "web-1|alice", createdAt := 0 },
    { eventKey := "web-2|bob", createdAt := 0 }]

/-- Ties that are found the other way round on every page but the first one. -/
def turnedTies (page : ℕ) : ListTies where
  events id := if page = 1 then id else 1 - id

def unequalEvents : Db where
  events := [
    { eventKey := "web-1|alice", createdAt := 0, queuePriority := 1, riskScore := 1 },
    { eventKey := "web-2|bob", createdAt := 0, queuePriority := 1, riskScore := 1 },
    { eventKey := "web-3|carol", createdAt := 0 }]

theorem listEvents_partition_two_pages :
    (listedEvents turnedTies unequalEvents { pageSize := 2 }).Perm
      (matchingEvents unequalEvents { pageSize := 2 }) :=
  (listEvents_partition_iff (by decide)).mpr (by decide) turnedTies

/-- On pages of one event, each query may find the same one of the two events last. -/
theorem listEvents_not_partition :
    ¬ ∀ (ties : ℕ → ListTies) (db : Db) (q : EventQuery), 0 < q.pageSize →
      (listedEvents ties db q).Perm (matchingEvents db q) := by
  intro h
  have hperm := h turnedTies twinEvents { pageSize := 1 } (by decide)
  exact absurd hperm (by decide)

end Minsight

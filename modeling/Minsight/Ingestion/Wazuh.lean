import Mathlib.Data.List.Sort
import Mathlib.Data.Prod.Lex
import Mathlib.Data.String.Basic
import Minsight.Aggregation.Key
import Minsight.Foundation.Paging
import Minsight.Ingestion.Cursor

/-! # The Wazuh indexer client

A search returns the first documents from a time on, strictly after the sort values it is given.
The client derives both from the last document it saw.
-/

namespace Minsight

/-- A document of the index, with the time it is indexed under. -/
structure Doc where
  timestamp : Time
  id : String
  index : String
  source : Document

/-- What the index is sorted by: `timestamp`, then `_id`. -/
abbrev DocKey := Lex (Time × String)

def Doc.key (d : Doc) : DocKey := toLex (d.timestamp, d.id)

/-- The `sort` of a hit. -/
def Doc.sort (d : Doc) : List Json := [.int d.timestamp, .str d.id]

theorem Doc.timestamp_le {d d' : Doc} (h : d.key ≤ d'.key) : d.timestamp ≤ d'.timestamp := by
  rcases Prod.Lex.toLex_le_toLex.mp h with h | h
  · exact le_of_lt h
  · exact le_of_eq h.1

/-- How the index reads a `search_after`; it refuses values it cannot read. -/
structure SearchAfter where
  read : List Json → Option DocKey
  read_sort : ∀ d : Doc, read d.sort = some d.key

def ordered (index : List Doc) : List Doc := index.insertionSort (·.key ≤ ·.key)

instance : Std.Total fun a b : Doc => a.key ≤ b.key := ⟨fun a b => le_total a.key b.key⟩

instance : IsTrans Doc fun a b : Doc => a.key ≤ b.key := ⟨fun _ _ _ h h' => le_trans h h'⟩

theorem ordered_sorted (index : List Doc) : (ordered index).Pairwise (·.key ≤ ·.key) :=
  List.pairwise_insertionSort _ _

theorem ordered_perm (index : List Doc) : (ordered index).Perm index :=
  List.perm_insertionSort _ _

structure SearchBody where
  size : ℕ
  gte : Time
  searchAfter : Option (List Json)

structure PullClock where
  windowAt : Time
  parsedAt : Time
  finishedAt : Time

structure PullResult where
  items : List Document := []
  nextCursor : CursorState
  hasMore : Bool := false
  fetched : ℕ := 0

section

variable (rt : Runtime) (after : SearchAfter) (initialLookbackHours : ℤ)

/-- `_window_start` -/
def windowStart (clock : PullClock) (cursor : CursorState) : Time :=
  match cursor.lastOccurredAt with
  | none => clock.windowAt - hours initialLookbackHours
  | some t => t

/-- The sort values a search is given; an empty list is left out. -/
def CursorState.searchAfter (cursor : CursorState) : Option (List Json) :=
  cursor.lastSortValues.filter fun values => !values.isEmpty

/-- `_build_query` -/
def buildQuery (clock : PullClock) (cursor : CursorState) (batchSize : ℕ) : SearchBody where
  size := batchSize
  gte := windowStart initialLookbackHours clock cursor
  searchAfter := cursor.searchAfter

/-- The key a search starts after, if it has one; `none` when the index cannot read it. -/
def readAfter : Option (List Json) → Option (Option DocKey)
  | none => some none
  | some values => (after.read values).map some

/-- The hits of a search. -/
def search (index : List Doc) (body : SearchBody) : Option (List Doc) :=
  (readAfter after body.searchAfter).map fun k =>
    (Paging.shown Doc.timestamp Doc.key (ordered index) ⟨body.gte, k⟩).take body.size

/-- `_normalize_hit` -/
def normalizeHit (hit : Doc) : Document :=
  setField (setField (setField hit.source "_id" (.str hit.id)) "_index" (.str hit.index)) "_sort"
    (.arr hit.sort)

def CursorState.moved (cursor : CursorState) (last : Doc) (lastTs : Time) : CursorState :=
  { cursor with lastOccurredAt := some lastTs, lastSortValues := some last.sort }

/-- The cursor after the hits of a search, up to the time of the run. -/
def advance (clock : PullClock) (cursor : CursorState) (hits : List Doc) : Option CursorState :=
  match hits.getLast? with
  | none => some cursor
  | some last => (parseTimestamp rt clock.parsedAt last.source).map (cursor.moved last)

/-- `search_alerts` -/
def searchAlerts (index : List Doc) (clock : PullClock) (cursor : CursorState) (batchSize : ℕ) :
    Option PullResult := do
  let hits ← search after index (buildQuery initialLookbackHours clock cursor batchSize)
  let items := hits.map normalizeHit
  let nextCursor ← advance rt clock cursor hits
  some {
    items, nextCursor := { nextCursor with lastSuccessfulRunAt := some clock.finishedAt }
    hasMore := decide (batchSize ≤ items.length), fetched := items.length }

/--
Search after search until there is no more, each with the cursor of the one before as it was
stored. The documents in order; `none` when a search raises or there is no fuel left.
-/
def searchAll (p : Pydantic) (index : List Doc) (clock : ℕ → PullClock) (batchSize : ℕ) :
    ℕ → ℕ → CursorState → Option (List Document)
  | 0, _, _ => none
  | fuel + 1, n, cursor => do
    let pull ← searchAlerts rt after initialLookbackHours index (clock n) cursor batchSize
    if pull.hasMore then
      let cursor ← CursorState.load p (pull.nextCursor.dump p)
      let rest ← searchAll p index clock batchSize fuel (n + 1) cursor
      some (pull.items ++ rest)
    else some pull.items

end

/-- Times as ISO 8601, as sample cursors are stored with. -/
def samplePydantic : Pydantic where
  dumpTime := isoformat
  readTime
    | .str s => (fromIsoFormat s.toList).bind asNaiveUtc
    | _ => none
  readInt
    | .int n => some n
    | _ => none
  readInt_int _ := rfl

def sampleSearchAfter : SearchAfter where
  read
    | [.int t, .str id] => some (toLex (t, id))
    | _ => none
  read_sort _ := rfl

/-- A document of the first day of 2026, so many seconds after midnight. -/
def sampleDoc (id : String) (seconds : ℤ) (timestamp : String) : Doc where
  timestamp := 1767225600000000 + seconds * 1000000
  id := id
  index := "wazuh-alerts-4.x-2026.01.01"
  source := [("timestamp", .str timestamp)]

/-- A search at noon of that day. -/
def sampleClock : PullClock where
  windowAt := 1767268800000000
  parsedAt := 1767268800000000
  finishedAt := 1767268800000000

end Minsight

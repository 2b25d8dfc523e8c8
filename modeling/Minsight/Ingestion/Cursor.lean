import Minsight.Foundation.IsoTime
import Minsight.Model.World

/-! # Cursors and timestamps

The cursor of a source is stored as JSON between two pulls. How pydantic writes and reads the
values of a cursor is a parameter.
-/

namespace Minsight

structure CursorState where
  version : ℤ := 1
  mode : String := "search_after"
  lastOccurredAt : Option Time := none
  lastSortValues : Option (List Json) := none
  lastSuccessfulRunAt : Option Time := none
  totalIngested : ℤ := 0

/-- How pydantic writes a `datetime` to JSON, and what it reads from JSON. -/
structure Pydantic where
  dumpTime : Time → String
  readTime : Json → Option Time
  readInt : Json → Option ℤ
  readInt_int : ∀ n, readInt (.int n) = some n

namespace Pydantic

variable (p : Pydantic)

def Keeps (t : Time) : Prop := p.readTime (.str (p.dumpTime t)) = some t

instance (t : Time) : Decidable (p.Keeps t) := inferInstanceAs (Decidable (_ = _))

end Pydantic

/-- A field of a model, or its default when the object does not have it. -/
def readField {α : Type} (state : Json) (key : String) (default : α) (read : Json → Option α) :
    Option α :=
  match state.get? key with
  | none => some default
  | some value => read value

/-- A value that may be `None`. -/
def readOptional {α : Type} (read : Json → Option α) : Json → Option (Option α)
  | .null => some none
  | value => (read value).map some

def Json.asArr? : Json → Option (List Json)
  | .arr items => some items
  | _ => none

namespace CursorState

section

variable (p : Pydantic)

/-- `cursor.model_dump(mode="json")` -/
def dump (c : CursorState) : Json :=
  .obj [
    ("version", .int c.version),
    ("mode", .str c.mode),
    ("last_occurred_at", (c.lastOccurredAt.map fun t => .str (p.dumpTime t)).getD .null),
    ("last_sort_values", (c.lastSortValues.map .arr).getD .null),
    ("last_successful_run_at", (c.lastSuccessfulRunAt.map fun t => .str (p.dumpTime t)).getD .null),
    ("total_ingested", .int c.totalIngested)]

/-- `CursorState.model_validate(state)`; `none` when a field does not validate. -/
def validate (state : Json) : Option CursorState := do
  let fields ← state.asObj?
  let version ← readField fields "version" 1 p.readInt
  let mode ← readField fields "mode" "search_after" Json.asStr?
  let lastOccurredAt ← readField fields "last_occurred_at" none (readOptional p.readTime)
  let lastSortValues ← readField fields "last_sort_values" none (readOptional Json.asArr?)
  let lastSuccessfulRunAt ←
    readField fields "last_successful_run_at" none (readOptional p.readTime)
  let totalIngested ← readField fields "total_ingested" 0 p.readInt
  some { version, mode, lastOccurredAt, lastSortValues, lastSuccessfulRunAt, totalIngested }

/-- `CursorState.model_validate(source.cursor_state or {})` -/
def load (state : Json) : Option CursorState :=
  validate p (if state.truthy then state else .obj [])

end

variable {p : Pydantic} {c : CursorState}

theorem readOptional_time {t : Option Time} (h : ∀ s, t = some s → p.Keeps s) :
    readOptional p.readTime ((t.map fun s => .str (p.dumpTime s)).getD .null) = some t := by
  cases t with
  | none => rfl
  | some s =>
    have hs : p.readTime (.str (p.dumpTime s)) = some s := h s rfl
    simp [readOptional, hs]

theorem readOptional_arr (values : Option (List Json)) :
    readOptional Json.asArr? ((values.map .arr).getD .null) = some values := by
  cases values <;> rfl

theorem readField_of_get {α : Type} {state : Json} {key : String} {value : Json} {default : α}
    {read : Json → Option α} (h : state.get? key = some value) :
    readField state key default read = read value := by
  rw [readField, h]

theorem validate_dump (hocc : ∀ t, c.lastOccurredAt = some t → p.Keeps t)
    (hrun : ∀ t, c.lastSuccessfulRunAt = some t → p.Keeps t) : validate p (dump p c) = some c := by
  have hversion : readField (dump p c) "version" 1 p.readInt = some c.version :=
    (readField_of_get rfl).trans (p.readInt_int _)
  have hmode : readField (dump p c) "mode" "search_after" Json.asStr? = some c.mode :=
    (readField_of_get rfl).trans rfl
  have hoccurred : readField (dump p c) "last_occurred_at" none (readOptional p.readTime) =
      some c.lastOccurredAt :=
    (readField_of_get rfl).trans (readOptional_time hocc)
  have hsort : readField (dump p c) "last_sort_values" none (readOptional Json.asArr?) =
      some c.lastSortValues :=
    (readField_of_get rfl).trans (readOptional_arr _)
  have hlastRun : readField (dump p c) "last_successful_run_at" none (readOptional p.readTime) =
      some c.lastSuccessfulRunAt :=
    (readField_of_get rfl).trans (readOptional_time hrun)
  have htotal : readField (dump p c) "total_ingested" 0 p.readInt = some c.totalIngested :=
    (readField_of_get rfl).trans (p.readInt_int _)
  have hobj : (dump p c).asObj? = some (dump p c) := rfl
  simp only [validate, hobj, hversion, hmode, hoccurred, hsort, hlastRun, htotal,
    Option.bind_eq_bind, Option.bind_some]

theorem load_dump (hocc : ∀ t, c.lastOccurredAt = some t → p.Keeps t)
    (hrun : ∀ t, c.lastSuccessfulRunAt = some t → p.Keeps t) : load p (dump p c) = some c :=
  validate_dump hocc hrun

end CursorState

/-- The fields of a document, in the order they were set. -/
abbrev Document := List (String × Json)

/-- `text.replace("Z", "+00:00")` -/
def spellZone (cs : List Char) : List Char :=
  cs.flatMap fun c => if c = 'Z' then ['+', '0', '0', ':', '0', '0'] else [c]

/-- `as_naive_utc(value)`; a time in UTC that `datetime` cannot hold is an `OverflowError`. -/
def asNaiveUtc : Time × Option Time → Option Time
  | (t, none) => some t
  | (t, some offset) =>
    if minTime ≤ t - offset ∧ t - offset ≤ maxTime then some (t - offset) else none

/-- `document.get(first) or document.get(second)` -/
def eitherOf (document : Document) (first second : String) : Option Json :=
  match document.lookup first with
  | some value => if value.truthy then some value else document.lookup second
  | none => document.lookup second

/-- The time a text stands for; the clock's where the text is no ISO 8601. -/
def isoTimeOr (now : Time) (text : String) : Option Time :=
  match fromIsoFormat (spellZone text.toList) with
  | none => some now
  | some parsed => asNaiveUtc parsed

/-- `_parse_timestamp` -/
def parseTimestamp (rt : Runtime) (now : Time) (source : Document) : Option Time :=
  match (eitherOf source "timestamp" "@timestamp").filter Json.truthy with
  | none => some now
  | some raw => isoTimeOr now (rt.str raw)

end Minsight

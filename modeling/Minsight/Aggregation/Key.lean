import Minsight.Foundation.Text
import Minsight.Model.World

/-! # Aggregation keys, titles and priorities -/

namespace Minsight

structure AggregationConfig where
  windowHours : ℤ := 24
  batchSize : ℤ := 500
  unknownHostSentinel : String := "__unknown_host__"
  unknownUserSentinel : String := "__unknown_user__"

structure AggregationDimensions where
  windowStart : Time
  hostNorm : String
  userNorm : String
  categoryNorm : String
  eventKey : String

def civilDate (day : ℤ) : ℤ × ℤ × ℤ :=
  let z := day + 719468
  let era := z / 146097
  let doe := z - era * 146097
  let yoe := (doe - doe / 1460 + doe / 36524 - doe / 146096) / 365
  let doy := doe - (365 * yoe + yoe / 4 - yoe / 100)
  let mp := (5 * doy + 2) / 153
  let d := doy - (153 * mp + 2) / 5 + 1
  let m := if mp < 10 then mp + 3 else mp - 9
  let y := yoe + era * 400 + if m ≤ 2 then 1 else 0
  (y, m, d)

/-- `ts.isoformat()`; the microseconds are shown when they are not zero. -/
def isoformat (ts : Time) : String :=
  let (y, m, d) := civilDate (utcDay ts)
  let rest := ts % 86400000000
  let seconds := rest / 1000000
  let micro := rest % 1000000
  padded 4 y ++ "-" ++ padded 2 m ++ "-" ++ padded 2 d ++ "T" ++ padded 2 (seconds / 3600) ++ ":"
    ++ padded 2 (seconds / 60 % 60) ++ ":" ++ padded 2 (seconds % 60)
    ++ if micro = 0 then "" else "." ++ padded 6 micro

/--
`floor_to_window_start`. Windows of any width other than 24 hours need `UTC`, which the
module does not import.
-/
def floorToWindowStart (ts : Time) (windowHours : ℤ) : Except Exn Time :=
  if windowHours = 24 then .ok (utcDay ts * 86400000000) else .error (.nameError "UTC")

/-- `(text or "").strip().lower() or sentinel` -/
def normalized (rt : Runtime) (text : Option String) (sentinel : String) : String :=
  orText (some (rt.lower (strip (text.getD "")))) sentinel

def normalizeDimensions (rt : Runtime) (config : AggregationConfig)
    (hostName userName alertCategory : Option String) (occurredAt : Time) :
    Except Exn AggregationDimensions := do
  let windowStart ← floorToWindowStart occurredAt config.windowHours
  let hostNorm := normalized rt hostName config.unknownHostSentinel
  let userNorm := normalized rt userName config.unknownUserSentinel
  let categoryNorm := rt.lower (strip (orText alertCategory "uncategorized"))
  let payload := hostNorm ++ "|" ++ userNorm ++ "|" ++ categoryNorm ++ "|" ++ isoformat windowStart
  pure { windowStart, hostNorm, userNorm, categoryNorm,
         eventKey := takeText 32 (rt.sha256Hex payload) }

def buildEventTitle (category hostName userName : Option String) (alertCount : ℕ)
    (maxSeverity : ℤ) : String :=
  "[" ++ orText category "uncategorized" ++ "] " ++ orText hostName "unknown-host" ++ " / "
    ++ orText userName "unknown-user" ++ " (" ++ toString alertCount ++ " alerts, max_severity="
    ++ toString maxSeverity ++ ")"

def routePriority : RouteDecision → ℤ
  | .queueDeepReview => 10
  | .queueUncertain => 5
  | _ => 0

end Minsight

import Minsight.Model.World

/-! # Health probe guards -/

namespace Minsight

/-- `HEALTH_PROBE_KEY` -/
def healthProbeKey : String := "health_probe"

/-- What the database reads as a boolean: any case, blanks around it, and unique prefixes. -/
def booleanInput (text : String) : Option Bool :=
  let blank (c : Char) : Bool := c = ' ' || ('\t' ≤ c && c ≤ '\r')
  let word := ((text.toList.dropWhile blank).reverse.dropWhile blank).reverse.map Char.toLower
  let reads (least : ℕ) (name : String) : Bool := least ≤ word.length && word.isPrefixOf name.toList
  if reads 1 "true" || reads 1 "yes" || reads 2 "on" || word = ['1'] then some true
  else if reads 1 "false" || reads 1 "no" || reads 2 "off" || word = ['0'] then some false
  else none

/-- The cast of a JSON value to a boolean, where a value that it refuses is not told from `NULL`:
only the probe service writes the flag, and it writes `true`. -/
def jsonIsTrue : Option Json → Bool
  | some (.bool b) => b
  | some (.str s) => booleanInput s = some true
  | some (.int n) => booleanInput (toString n) = some true
  | _ => false

def isProbeAlert (alert : Alert) : Bool := jsonIsTrue (alert.normalizedFields.get? healthProbeKey)

/-- `event_is_probe`: some alert linked to the event carries the flag. -/
def eventIsProbe (db : Db) (eventId : ℕ) : Bool :=
  db.eventAlerts.any fun l =>
    l.eventId == eventId && ((db.alerts[l.alertId]?).map isProbeAlert).getD false

end Minsight

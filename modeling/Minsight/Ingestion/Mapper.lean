import Minsight.Aggregation.Key
import Minsight.Ingestion.Cursor
import Minsight.Ingestion.Service

/-! # Mapping Wazuh documents

A document may hold any JSON under any key. What a mapping raises is an error of that document.
-/

namespace Minsight

/-- The times at which mapping one document reads the clock. -/
structure MapClock where
  idAt : Time
  occurredAt : Time

/-- `value or {}`, for a value whose fields are read. -/
def fieldsOf (value : Option Json) : Except Exn Document :=
  match value with
  | none => .ok []
  | some (.obj fields) => .ok fields
  | some v => if v.truthy then .error (.attributeError "get") else .ok []

/-- A value that is not `None`. -/
def present (value : Option Json) : Option Json :=
  match value with
  | some .null => none
  | v => v

def words (cs : List Char) : List (List Char) :=
  (cs.splitOnP isSpace).filter fun word => !word.isEmpty

/-- `re.sub("[^a-z0-9]+", "_", text)`, when the last character was kept or not. -/
def subRuns (keep : Char → Bool) : Bool → List Char → List Char
  | _, [] => []
  | dropped, c :: cs =>
    if keep c then c :: subRuns keep false cs
    else if dropped then subRuns keep true cs
    else '_' :: subRuns keep true cs

section

variable (rt : Runtime)

/-- `_first_str` -/
def firstStr (values : List (Option Json)) : Option String :=
  values.findSome? fun value => (present value).bind fun v =>
    truthyText (some (strip (rt.str v)))

/-- `int(value)`, given `int` on texts. -/
def intOf (int : String → Option ℤ) : Json → Except Exn ℤ
  | .bool b => .ok (if b then 1 else 0)
  | .int n => .ok n
  | .float q => .ok (q.num.tdiv q.den)
  | .str s => (int s).elim (.error (.valueError "invalid literal for int()")) .ok
  | _ => .error .typeError

def wazuhGroupToCategory : List (String × String) :=
  [("authentication_failed", "brute_force"),
    ("authentication_success", "login_anomaly"),
    ("authentication", "authentication"),
    ("syscheck", "file_integrity"),
    ("web", "web_attack"),
    ("ids", "network_intrusion"),
    ("firewall", "firewall"),
    ("syslog", "syslog"),
    ("windows", "windows_event"),
    ("ossec", "host_anomaly"),
    ("malware", "malware"),
    ("pci_dss", "compliance")]

def slugify (value : String) : String :=
  let keep := fun c => ('a' ≤ c && c ≤ 'z') || isDigit c
  let slug := subRuns keep false (rt.lower value).toList
  let slug := ((slug.dropWhile (· == '_')).reverse.dropWhile (· == '_')).reverse
  if slug.isEmpty then "uncategorized" else String.ofList slug

/-- The category of the first group that has one; a group that cannot be hashed raises. -/
def groupCategory : List Json → Except Exn (Option String)
  | [] => .ok none
  | .str s :: groups =>
    match wazuhGroupToCategory.lookup s with
    | some category => .ok (some category)
    | none => groupCategory groups
  | .arr _ :: _ => .error .typeError
  | .obj _ :: _ => .error .typeError
  | _ :: groups => groupCategory groups

def mapWazuhCategory (groups : List Json) : Except Exn String := do
  match ← groupCategory groups, groups with
  | some category, _ => .ok category
  | none, [] => .ok "uncategorized"
  | none, .str s :: _ => .ok (slugify rt s)
  | none, _ :: _ => .error (.attributeError "lower")

def mapWazuhLevel (int : String → Option ℤ) (level : Option Json) : ℤ :=
  match (present level).map (intOf int) with
  | some (.ok value) =>
    if 12 ≤ value then 5
    else if 9 ≤ value then 4
    else if 6 ≤ value then 3
    else if 3 ≤ value then 2
    else 1
  | _ => 3

def computeFingerprint (dataSourceName : String)
    (ruleId srcIp dstIp userName hostName alertCategory : Option String) : String :=
  takeText 16 (rt.sha256Hex (joinText "|"
    [dataSourceName, ruleId.getD "", srcIp.getD "", dstIp.getD "", userName.getD "",
      hostName.getD "", alertCategory.getD ""]))

/-- `parse_occurred_at` -/
def parseOccurredAt (now : Time) (raw : Document) : Except Exn Time :=
  match present (eitherOf raw "timestamp" "@timestamp") with
  | none => .ok now
  | some value => (isoTimeOr now (rt.str value)).elim (.error .overflowError) .ok

/-- `extract_request_url` of a document that has no normalized fields yet. -/
def extractRequestUrl (raw : Document) : Except Exn (Option String) := do
  let data ← fieldsOf (raw.lookup "data")
  match firstStr rt [data.lookup "url", data.lookup "request_uri", data.lookup "uri",
    data.lookup "path"] with
  | some url => .ok (some url)
  | none =>
    match raw.lookup "full_log" with
    | some (.str log) =>
      .ok (((words log.toList).find? fun token => token.head? = some '/').map fun token =>
        String.ofList (token.reverse.dropWhile (· == '?')).reverse)
    | _ => .ok none

/-- `extract_source_alert_id` -/
def extractSourceAlertId (now : Time) (raw : Document) : Except Exn String :=
  match firstStr rt [raw.lookup "_id", raw.lookup "id"] with
  | some alertId => .ok alertId
  | none => do
    let ts ← parseOccurredAt rt now raw
    let rule := (raw.lookup "rule").bind Json.asObj?
    let ruleId := match rule.bind (·.get? "id") with
      | some id => if id.truthy then rt.str id else "unknown"
      | none => "unknown"
    .ok (ruleId ++ ":" ++ isoformat ts)

/-- `(raw.get("full_log") or "")[:500] or None` -/
def fullLogExcerpt (raw : Document) : Except Exn (Option Json) :=
  match raw.lookup "full_log" with
  | none => .ok none
  | some (.str log) => .ok (if log = "" then none else some (.str (takeText 500 log)))
  | some (.arr items) => .ok (if items.isEmpty then none else some (.arr (items.take 500)))
  | some value => if value.truthy then .error .typeError else .ok none

/-- `raw.get("decoder", {}).get("name")`, of a decoder that is an object. -/
def decoderName (raw : Document) : Option Json :=
  match raw.lookup "decoder" with
  | some (.obj decoder) => decoder.lookup "name"
  | _ => none

def portOf (int : String → Option ℤ) (value : Option Json) : Except Exn (Option ℤ) :=
  match present value with
  | none => .ok none
  | some v => (intOf int v).map some

/-- `map_wazuh_alert` -/
def mapWazuhAlert (int : String → Option ℤ) (dataSourceId dataSourceName : String)
    (clock : MapClock) (raw : Document) : Except Exn NormalizedAlert := do
  let data ← fieldsOf (raw.lookup "data")
  let process := match data.lookup "process" with
    | some (.obj fields) => fields
    | _ => []
  let rule ← fieldsOf (raw.lookup "rule")
  let ruleId := firstStr rt [rule.lookup "id"]
  let ruleName := firstStr rt [rule.lookup "description"]
  let ruleLevel := rule.lookup "level"
  let groups := match rule.lookup "groups" with
    | some (.arr items) => items
    | _ => []
  let alertCategory ← mapWazuhCategory rt groups
  let agent ← fieldsOf (raw.lookup "agent")
  let srcIp := firstStr rt [data.lookup "srcip", data.lookup "src_ip", agent.lookup "ip"]
  let dstIp := firstStr rt [data.lookup "dstip", data.lookup "dst_ip"]
  let userName := firstStr rt [data.lookup "dstuser", data.lookup "uid", data.lookup "srcuser"]
  let hostName := firstStr rt [agent.lookup "name"]
  let syscheck ← fieldsOf (raw.lookup "syscheck")
  let requestUrl ← extractRequestUrl rt raw
  let excerpt ← fullLogExcerpt raw
  let normalizedFields : List (String × Option Json) := [
    ("rule_groups", some (.arr groups)),
    ("agent_id", agent.lookup "id"),
    ("agent_ip", agent.lookup "ip"),
    ("decoder_name", decoderName raw),
    ("location", raw.lookup "location"),
    ("geo_location", eitherOf raw "GeoLocation" "geoLocation"),
    ("full_log_excerpt", excerpt),
    ("request_url", requestUrl.map .str),
    ("data_source_id", some (.str dataSourceId))]
  let sourceAlertId ← extractSourceAlertId rt clock.idAt raw
  let occurredAt ← parseOccurredAt rt clock.occurredAt raw
  let srcPort ← portOf int (eitherOf data "srcport" "src_port")
  let dstPort ← portOf int (eitherOf data "dstport" "dst_port")
  .ok {
    sourceAlertId
    fingerprint := computeFingerprint rt dataSourceName ruleId srcIp dstIp userName hostName
      (some alertCategory)
    ruleId
    ruleName
    severity := mapWazuhLevel int ruleLevel
    severityRaw := (present ruleLevel).map rt.str
    occurredAt
    srcIp
    dstIp
    srcPort
    dstPort
    userName
    hostName
    processName := firstStr rt [process.lookup "name", data.lookup "process_name"]
    processCmdline := firstStr rt [process.lookup "cmd", data.lookup "command"]
    fileHash := firstStr rt [syscheck.lookup "sha256_after", data.lookup "hash"]
    alertCategory := some alertCategory
    normalizedFields := .obj (normalizedFields.filterMap fun field =>
      (present field.2).map fun value => (field.1, value))
    rawData := .obj raw }

end

end Minsight

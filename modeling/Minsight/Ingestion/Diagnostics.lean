import Minsight.Foundation.SortedSet
import Minsight.Ingestion.Batch
import Minsight.Ingestion.Pagination

/-! # Ingestion diagnostics

A diagnosis probes the indexer of every Wazuh source and turns what it finds into checks. The probe
counts all documents from the time of the cursor on; a search leaves out those up to the last one
it has seen.
-/

namespace Minsight.Diagnostics

inductive CheckStatus
  | ok | warn | error | info | skip
  deriving DecidableEq

inductive OverallStatus
  | ok | warn | error
  deriving DecidableEq

structure DiagnosticCheck where
  id : String
  label : String
  status : CheckStatus
  message : String
  detail : Option String := none
  suggestion : Option String := none

structure DataSourceStats where
  alertsInDb : ℕ := 0
  cursorLastOccurredAt : Option String := none
  cursorTotalIngested : ℤ := 0
  lastSuccessfulRunAt : Option String := none
  initialLookbackHours : Option ℤ := none
  indexerUrl : Option String := none
  indexerLatestAt : Option String := none
  indexerTotalAlerts : Option ℕ := none
  windowStart : Option String := none
  windowMatchCount : Option ℕ := none

structure DataSourceDiagnostics where
  dataSourceId : ℕ
  name : String
  adapterType : String
  isActive : Bool
  overallStatus : OverallStatus
  checks : List DiagnosticCheck := []
  stats : DataSourceStats := {}
  actionsAvailable : List String := []

structure IngestionDiagnosticsReport where
  generatedAt : String
  overallStatus : OverallStatus
  sources : List DataSourceDiagnostics
  summary : String
  geolite2Ready : Bool := false
  geolite2Path : Option String := none

def statusFromChecks (checks : List DiagnosticCheck) : OverallStatus :=
  if checks.any (·.status = .error) then .error
  else if checks.any (·.status = .warn) then .warn
  else .ok

def aggregateStatus (reports : List DataSourceDiagnostics) : OverallStatus :=
  let real := reports.filter (·.adapterType ≠ "health_probe")
  if real = [] then .ok
  else if real.any (·.overallStatus = .error) then .error
  else if real.any (·.overallStatus = .warn) then .warn
  else .ok

def buildSummary (reports : List DataSourceDiagnostics) (overall : OverallStatus) : String :=
  match reports.find? (·.adapterType = "wazuh") with
  | none => "未配置 Wazuh 数据源。"
  | some wazuh =>
    match overall with
    | .ok =>
      let pending := wazuh.stats.windowMatchCount.getD 0
      if 0 < pending then "Wazuh 连接正常，约 " ++ toString pending ++ " 条告警待入库。"
      else "Wazuh 连接正常，已追平 Indexer，暂无新告警。"
    | .error =>
      match wazuh.checks.find? (·.status = .error) with
      | some check => check.message
      | none => "Wazuh 数据源存在错误，请查看下方检查项。"
    | .warn =>
      match wazuh.checks.find? (·.status = .warn) with
      | some check => check.message
      | none => "Wazuh 数据源需关注，请查看下方检查项。"

/-- `httpx.HTTPStatusError`, or another `httpx.HTTPError` with its text. -/
inductive RequestError
  | status (code : ℕ)
  | transport (text : String)

def RequestError.unauthorized : RequestError → Bool
  | .status code => code = 401 || code = 403
  | .transport _ => false

/-- What the attempts of one request return: a status code, or an error. -/
abbrev Attempts := ℕ → Except RequestError ℕ

/-- The attempts from the `n`-th on, with so many left after it. -/
def requestFrom (attempts : Attempts) : ℕ → ℕ → Except RequestError ℕ
  | 0, n => attempts n
  | left + 1, n =>
    match attempts n with
    | .ok status => .ok status
    | .error e => if e.unauthorized then .error e else requestFrom attempts left (n + 1)

/-- `_request_with_retry`, with three attempts. -/
def requestWithRetry (attempts : Attempts) : Except RequestError ℕ := requestFrom attempts 2 0

structure IndexerProbeResult where
  connected : Bool
  httpStatus : Option ℕ := none
  error : Option String := none
  latestTimestamp : Option Time := none
  totalAlerts : Option ℕ := none
  windowStart : Time
  windowMatchCount : Option ℕ := none

/-- What a probe meets: the attempts of its requests, the index as each of them finds it, and the
hit that the index puts first by time. -/
structure ProbeEnv where
  latestAttempts : Attempts
  windowAttempts : Attempts
  latestIndex : List Doc
  windowIndex : List Doc
  latestHit : Option Doc
  latestHit_iff : latestHit = none ↔ latestIndex = []
  latestHit_newest : ∀ d, latestHit = some d →
    d ∈ latestIndex ∧ ∀ d' ∈ latestIndex, d'.timestamp ≤ d.timestamp
  clock : PullClock

def disconnected (start : Time) : RequestError → IndexerProbeResult
  | .status code => {
    connected := false, httpStatus := some code, windowStart := start
    error := some <|
      if code = 401 ∨ code = 403 then
        "认证失败，请检查 WAZUH_INDEXER_USER / WAZUH_INDEXER_PASSWORD"
      else "Indexer 返回 HTTP " ++ toString code }
  | .transport text => {
    connected := false, windowStart := start
    error := some ("无法连接 Indexer：" ++ text) }

/-- The time of the latest hit, if there is one; an error when `datetime` cannot hold it. -/
def latestTime (rt : Runtime) (env : ProbeEnv) : Except Exn (Option Time) :=
  match env.latestHit with
  | none => .ok none
  | some hit =>
    (parseTimestamp rt env.clock.parsedAt hit.source).elim (.error .overflowError) (.ok ∘ some)

/-- The documents a probe counts: those from the start of the window on. -/
def windowMatches (index : List Doc) (start : Time) : List Doc :=
  index.filter fun d => start ≤ d.timestamp

/-- `probe`; the index counts at most 10000 hits of a search that does not ask for more. -/
def probe (rt : Runtime) (initialLookbackHours : ℤ) (cursor : CursorState) (env : ProbeEnv) :
    Except Exn IndexerProbeResult :=
  let start := windowStart initialLookbackHours env.clock cursor
  match requestWithRetry env.latestAttempts with
  | .error e => .ok (disconnected start e)
  | .ok status =>
    match latestTime rt env with
    | .error e => .error e
    | .ok latest =>
      match requestWithRetry env.windowAttempts with
      | .error e => .ok (disconnected start e)
      | .ok _ => .ok {
        connected := true
        httpStatus := some status
        latestTimestamp := latest
        totalAlerts := some (min env.latestIndex.length 10000)
        windowStart := start
        windowMatchCount := some (windowMatches env.windowIndex start).length }

/-- The configuration with the texts a diagnosis shows. -/
structure IndexerConfig extends WazuhIndexerConfig where
  indexerUrl : String
  usernameEnv : String
  passwordEnv : String
  indexPattern : String

/-- `text.rstrip("/")` -/
def stripSlashes (text : String) : String :=
  String.ofList (text.toList.reverse.dropWhile (· = '/')).reverse

def IndexerConfig.validate (p : Pydantic) (config : Json) : Option IndexerConfig := do
  let parsed ← WazuhIndexerConfig.validate p config
  let url ← (config.get? "indexer_url").bind Json.asStr?
  let usernameEnv ← readField config "username_env" "WAZUH_INDEXER_USER" Json.asStr?
  let passwordEnv ← readField config "password_env" "WAZUH_INDEXER_PASSWORD" Json.asStr?
  let indexPattern ← readField config "index_pattern" "wazuh-alerts-*" Json.asStr?
  some { parsed with indexerUrl := stripSlashes url, usernameEnv, passwordEnv, indexPattern }

/-- `resolve_credentials` finds both variables, and neither is empty. -/
def IndexerConfig.hasCredentials (environ : String → Option String) (config : IndexerConfig) :
    Bool :=
  (truthyText (environ config.usernameEnv)).isSome
    && (truthyText (environ config.passwordEnv)).isSome

structure SourceEnv extends ProbeEnv where
  environ : String → Option String := fun _ => none
  /-- The text of a failed validation of the configuration. -/
  configError : String := ""
  /-- Something else that is raised while the indexer is probed, with its text. -/
  probeFault : Option String := none
  /-- The text of an exception. -/
  text : Exn → String := fun _ => ""

def credentialsCheck (message : String) : DiagnosticCheck where
  id := "credentials"
  label := "Indexer 凭据"
  status := .error
  message
  suggestion := some "在 .env 或容器环境中设置 WAZUH_INDEXER_USER 与 WAZUH_INDEXER_PASSWORD。"

def connectionCheck (status : CheckStatus) (message : String) (detail suggestion : Option String) :
    DiagnosticCheck where
  id := "connection"
  label := "Indexer 连接"
  status
  message
  detail
  suggestion

def noDataCheck : DiagnosticCheck where
  id := "indexer_data"
  label := "Indexer 告警"
  status := .warn
  message := "Indexer 中暂无告警数据"
  suggestion := some "在 Wazuh/Suricata 侧确认告警是否写入 Indexer。"

def cursorCheck (lookback : ℤ) (start : Time) (cursor : CursorState) : DiagnosticCheck :=
  match cursor.lastOccurredAt with
  | none => {
    id := "cursor", label := "入库游标", status := .info
    message := "游标为空，将按初始回溯窗口拉取"
    detail := some ("回溯 " ++ toString lookback ++ " 小时，自 " ++ isoformat start ++ " 起") }
  | some t => {
    id := "cursor", label := "入库游标", status := .ok
    message := "已追平至 " ++ isoformat t
    detail := some ("游标累计入库 " ++ toString cursor.totalIngested
      ++ " 条（游标计数，非 DB 总数）") }

def gapCheck (lookback : ℤ) (latest : Time) : DiagnosticCheck where
  id := "lookback_gap"
  label := "回溯窗口"
  status := .warn
  message := "当前回溯 " ++ toString lookback ++ " 小时内无告警，"
    ++ "Indexer 最新告警为 " ++ isoformat latest
  detail := some ("游标重置后默认只查最近 " ++ toString lookback
    ++ " 小时；较旧的告警不会进入增量查询。")
  suggestion := some "点击下方「扩大回溯并重新拉取」可补拉最多 7 天内的历史告警。"

def caughtUpCheck (latest : Time) (alertsInDb : ℕ) : DiagnosticCheck where
  id := "caught_up"
  label := "增量状态"
  status := .ok
  message := "已追平 Indexer 最新告警，暂无新数据"
  detail := some ("Indexer 最新：" ++ isoformat latest ++ "；库内 " ++ toString alertsInDb ++ " 条")
  suggestion := some "等待 Wazuh 产生新告警后会自动入库；也可手动点击「告警入库」。"

def fallenBehindCheck (latest : Time) : DiagnosticCheck where
  id := "caught_up"
  label := "增量状态"
  status := .warn
  message := "当前增量窗口内无匹配告警"
  detail := some ("Indexer 最新：" ++ isoformat latest)
  suggestion := some "若刚重置游标，请尝试扩大回溯窗口。"

def emptyWindowCheck : DiagnosticCheck where
  id := "empty_window"
  label := "增量窗口"
  status := .warn
  message := "当前查询条件下 Indexer 返回 0 条"
  suggestion := some "检查 index_pattern 是否正确，或扩大回溯窗口。"

def pendingCheck (windowCount alertsInDb : ℕ) : DiagnosticCheck where
  id := "pending_pull"
  label := "待拉取告警"
  status := .ok
  message := "增量窗口内约 " ++ toString windowCount ++ " 条告警可拉取"
    ++ if 0 < alertsInDb then "（若库内已有相同告警，入库时会计为重复）" else ""
  suggestion := some "点击上方「告警入库」或等待定时任务自动同步。"

def dbEmptyCheck : DiagnosticCheck where
  id := "db_empty"
  label := "本地告警库"
  status := .warn
  message := "库内尚无告警，但 Indexer 有数据可拉"
  suggestion := some "执行「告警入库」写入 alerts 表。"

/-- What a diagnosis says of the window, and the actions it offers. -/
def windowCheck (lookback : ℤ) (start : Time) (cursor : CursorState) (latest : Option Time)
    (windowCount alertsInDb : ℕ) : DiagnosticCheck × List String :=
  if 0 < windowCount then (pendingCheck windowCount alertsInDb, [])
  else
    match latest with
    | none => (emptyWindowCheck, ["extend_lookback"])
    | some latest =>
      if latest < start then (gapCheck lookback latest, ["extend_lookback"])
      else
        match cursor.lastOccurredAt with
        | none => (emptyWindowCheck, ["extend_lookback"])
        | some t =>
          if |latest - t| < 60000000 then (caughtUpCheck latest alertsInDb, [])
          else (fallenBehindCheck latest, ["extend_lookback"])

/-- What `_diagnose_wazuh` returns, with the statistics it fills in. -/
structure Findings where
  checks : List DiagnosticCheck
  actions : List String := []
  stats : DataSourceStats

def answeringFindings (config : IndexerConfig) (cursor : CursorState) (result : IndexerProbeResult)
    (stats : DataSourceStats) : Findings :=
  let stats := { stats with
    indexerTotalAlerts := result.totalAlerts
    indexerLatestAt := result.latestTimestamp.map isoformat
    windowMatchCount := result.windowMatchCount }
  let connection := connectionCheck .ok
    ("连接正常（HTTP " ++ (result.httpStatus.map toString).getD "None" ++ "）")
    (some ("索引：" ++ config.indexPattern ++ "，地址：" ++ config.indexerUrl)) none
  if result.totalAlerts = some 0 then { checks := [connection, noDataCheck], stats }
  else
    let windowCount := result.windowMatchCount.getD 0
    let window := windowCheck config.initialLookbackHours result.windowStart cursor
      result.latestTimestamp windowCount stats.alertsInDb
    { checks :=
        [connection, cursorCheck config.initialLookbackHours result.windowStart cursor, window.1]
          ++ if stats.alertsInDb = 0 ∧ 0 < windowCount then [dbEmptyCheck] else []
      actions := window.2, stats }

section

variable (lib : IngestLib)

/-- `_diagnose_wazuh` -/
def diagnoseWazuh (source : DataSource) (env : SourceEnv) (stats : DataSourceStats) :
    Except Exn Findings :=
  match IndexerConfig.validate lib.pydantic source.config with
  | none => .ok { checks := [credentialsCheck env.configError], stats }
  | some config =>
    let stats := { stats with
      initialLookbackHours := some config.initialLookbackHours
      indexerUrl := some config.indexerUrl }
    if config.hasCredentials env.environ = false then
      .ok {
        checks := [credentialsCheck ("Missing Wazuh Indexer credentials: set " ++ config.usernameEnv
          ++ " and " ++ config.passwordEnv)]
        stats }
    else
      match CursorState.load lib.pydantic source.cursorState with
      | none => .error (.valueError "CursorState")
      | some cursor =>
        let failed (text : String) : Findings := {
          checks := [connectionCheck .error ("探测失败：" ++ text) none
            (some "检查 indexer_url、网络连通性与 TLS 配置（verify_tls / ca_cert_path）。")]
          stats }
        match env.probeFault, probe lib.rt config.initialLookbackHours cursor env.toProbeEnv with
        | some text, _ => .ok (failed text)
        | none, .error e => .ok (failed (env.text e))
        | none, .ok result =>
          let stats := { stats with windowStart := some (isoformat result.windowStart) }
          if result.connected then .ok (answeringFindings config cursor result stats)
          else .ok {
            checks := [connectionCheck .error (result.error.getD "无法连接 Wazuh Indexer")
              (some ("目标地址：" ++ config.indexerUrl))
              (some "确认 ECS-B Indexer 可达、端口开放，且账号密码正确。")]
            stats }

/-- `_load_stats` -/
def loadStats (db : IngestDb) (i : ℕ) (source : DataSource) : Except Exn DataSourceStats := do
  let cursor := if source.cursorState.truthy then source.cursorState else .obj []
  let shown (key : String) := ((cursor.get? key).filter Json.truthy).map lib.rt.str
  let total ← intOf lib.int ((cursor.get? "total_ingested").getD (.int 0))
  pure {
    alertsInDb := db.alerts.countP (·.dataSourceId = i)
    cursorLastOccurredAt := shown "last_occurred_at"
    cursorTotalIngested := total
    lastSuccessfulRunAt := shown "last_successful_run_at" }

def inactiveCheck : DiagnosticCheck where
  id := "inactive"
  label := "数据源状态"
  status := .warn
  message := "数据源已禁用"
  suggestion := some "在 data_sources 表或部署配置中启用该数据源。"

def healthProbeCheck : DiagnosticCheck where
  id := "health_probe"
  label := "探针数据源"
  status := .info
  message := "health_probe 为链路自检专用，不会从外部拉取告警"
  detail := some "入库显示 fetched=0 属于正常现象；请使用「链路探针」验证端到端流程。"

def unknownAdapterCheck (adapterType : String) : DiagnosticCheck where
  id := "unknown_adapter"
  label := "适配器"
  status := .error
  message := "未知适配器类型：" ++ adapterType
  suggestion := some "检查部署版本是否包含该适配器，或修正 adapter_type。"

def registeredTypes : List String := ["health_probe", "mock", "wazuh"]

/-- `_build_report` -/
def buildReport (i : ℕ) (source : DataSource) (findings : Findings) : DataSourceDiagnostics where
  dataSourceId := i
  name := source.name
  adapterType := source.adapterType
  isActive := source.isActive
  overallStatus := statusFromChecks findings.checks
  checks := findings.checks
  stats := findings.stats
  actionsAvailable := sortedSet findings.actions

/-- `_diagnose_source` -/
def diagnoseSource (db : IngestDb) (i : ℕ) (source : DataSource) (env : SourceEnv) :
    Except Exn DataSourceDiagnostics := do
  let stats ← loadStats lib db i source
  let inactive := if source.isActive then [] else [inactiveCheck]
  if source.adapterType = "health_probe" then
    pure { buildReport i source { checks := inactive ++ [healthProbeCheck], stats } with
      overallStatus := if source.isActive then .ok else .warn }
  else if source.adapterType ∉ registeredTypes then
    pure (buildReport i source
      { checks := inactive ++ [unknownAdapterCheck source.adapterType], stats })
  else if source.adapterType = "wazuh" then do
    let findings ← diagnoseWazuh lib source env stats
    pure (buildReport i source { findings with checks := inactive ++ findings.checks })
  else pure (buildReport i source { checks := inactive, stats })

/-- What a report meets outside the database; the database orders the sources by name. -/
structure DiagnosticsEnv where
  arrange : List (ℕ × DataSource) → List (ℕ × DataSource)
  arrange_perm : ∀ sources, (arrange sources).Perm sources
  sources : ℕ → SourceEnv
  generatedAt : Time
  geoReady : Bool := false
  geoPath : String := ""

/-- `IngestionDiagnosticsService.run` -/
def runDiagnostics (db : IngestDb) (env : DiagnosticsEnv) :
    Except Exn IngestionDiagnosticsReport := do
  let sources := env.arrange (Rows.select (fun _ _ => true) db.dataSources)
  let reports ← sources.mapM fun s => diagnoseSource lib db s.1 s.2 (env.sources s.1)
  let overall := aggregateStatus reports
  pure {
    generatedAt := isoformat env.generatedAt
    overallStatus := overall
    sources := reports
    summary := buildSummary reports overall
    geolite2Ready := env.geoReady
    geolite2Path := truthyText (some env.geoPath) }

end

end Minsight.Diagnostics

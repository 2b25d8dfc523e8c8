import Minsight.Ingestion.Mapper
import Minsight.Ingestion.Wazuh

/-! # Ingestion, statement by statement

One session pulls, maps and stores. A statement that fails spoils the transaction, which then
takes no statement until it is rolled back; nothing in this service rolls it back. A flush that
fails also makes the session forget what it has loaded, and a refresh does so before it loads.
-/

namespace Minsight

/-- The tables ingestion reads and writes. -/
structure IngestDb where
  dataSources : Rows DataSource := []
  alerts : Rows Alert := []

structure IngestSession where
  committed : IngestDb := {}
  /-- The tables as the open transaction sees them. -/
  db : IngestDb := {}
  failed : Bool := false
  /-- The attributes of the source at hand are to be loaded again. -/
  expired : Bool := false
  /-- The documents of committed batches that were mapped, as an observer records them. -/
  seen : List Document := []

/-- A session that has just been opened. -/
def IngestSession.opened (db : IngestDb) : IngestSession := { committed := db, db := db }

abbrev Ingest (α : Type) := Tx Exn IngestSession α

namespace Ingest

open Tx

variable {α : Type}

/-- A statement of the open transaction; whether its failure expires what is loaded. -/
def attemptStatement (expires : Bool) (f : IngestDb → Except Exn (α × IngestDb)) : Ingest α :=
  ExceptT.mk fun s =>
    if s.failed then (.error .pendingRollback, s)
    else
      match f s.db with
      | .ok (a, db) => (.ok a, { s with db := db })
      | .error e => (.error e, { s with failed := true, expired := s.expired || expires })

/-- `session.execute(…)` -/
def statement (f : IngestDb → Except Exn (α × IngestDb)) : Ingest α := attemptStatement false f

def answer (fault : Option Exn) (a : α) (db : IngestDb) : Except Exn (α × IngestDb) :=
  match fault with
  | some e => .error e
  | none => .ok (a, db)

/-- `session.commit()` -/
def commit (fault : Option Exn) : Ingest Unit := do
  statement (answer fault ())
  Tx.write fun s => { s with committed := s.db }

def outcome (r : Except Exn α) : Ingest α :=
  match r with
  | .ok a => pure a
  | .error e => Tx.raise e

variable {β : Type} {s s' : IngestSession} {fault : Option Exn} {a b : α} {c : β} {db db' : IngestDb}

@[simp] theorem answer_ok : answer fault a db = .ok (b, db') ↔ fault = none ∧ a = b ∧ db = db' := by
  cases fault <;> simp [answer]

theorem exec_attemptStatement_ok {expires : Bool} {f : IngestDb → Except Exn (α × IngestDb)} :
    exec (attemptStatement expires f) s = (.ok a, s') ↔
      s.failed = false ∧ ∃ db, f s.db = .ok (a, db) ∧ { s with db := db } = s' := by
  have hexec : exec (attemptStatement expires f) s =
      if s.failed then (.error .pendingRollback, s)
      else
        match f s.db with
        | .ok (a, db) => (.ok a, { s with db := db })
        | .error e => (.error e, { s with failed := true, expired := s.expired || expires }) := rfl
  rw [hexec]
  cases s.failed with
  | true => simp
  | false =>
    rcases f s.db with e | ⟨a', db⟩
    · simp
    · simp [eq_comm]

@[simp] theorem exec_attemptStatement_bind_ok {expires : Bool}
    {f : IngestDb → Except Exn (α × IngestDb)} {k : α → Ingest β} :
    exec (attemptStatement expires f >>= k) s = (.ok c, s') ↔
      s.failed = false ∧ ∃ a db, f s.db = .ok (a, db) ∧
        exec (k a) { s with db := db } = (.ok c, s') := by
  rw [exec_bind_ok]
  constructor
  · rintro ⟨a, s₁, h, hk⟩
    obtain ⟨hfailed, db, hf, rfl⟩ := exec_attemptStatement_ok.mp h
    exact ⟨hfailed, a, db, hf, hk⟩
  · rintro ⟨hfailed, a, db, hf, hk⟩
    exact ⟨a, _, exec_attemptStatement_ok.mpr ⟨hfailed, db, hf, rfl⟩, hk⟩

@[simp] theorem exec_statement_bind_ok {f : IngestDb → Except Exn (α × IngestDb)}
    {k : α → Ingest β} :
    exec (statement f >>= k) s = (.ok c, s') ↔
      s.failed = false ∧ ∃ a db, f s.db = .ok (a, db) ∧
        exec (k a) { s with db := db } = (.ok c, s') :=
  exec_attemptStatement_bind_ok

@[simp] theorem exec_commit_bind_ok {k : Unit → Ingest β} :
    exec (commit fault >>= k) s = (.ok c, s') ↔
      s.failed = false ∧ fault = none ∧
        exec (k ()) { s with committed := s.db } = (.ok c, s') := by
  simp only [commit, bind_assoc, exec_statement_bind_ok, answer_ok, exec_bind_write]
  constructor
  · rintro ⟨hfailed, _, _, ⟨hfault, -, rfl⟩, hk⟩
    exact ⟨hfailed, hfault, hk⟩
  · rintro ⟨hfailed, hfault, hk⟩
    exact ⟨hfailed, (), s.db, by simpa using hfault, hk⟩

@[simp] theorem exec_outcome_bind_ok {r : Except Exn α} {k : α → Ingest β} :
    exec (outcome r >>= k) s = (.ok c, s') ↔ ∃ a, r = .ok a ∧ exec (k a) s = (.ok c, s') := by
  cases r <;> simp [outcome]

end Ingest

/-- What the columns of `alerts` take: a text, an address, a JSON value. -/
structure Columns where
  text : String → Bool
  inet : String → Bool
  jsonb : Json → Bool

/-- `String(n)` and `Text` -/
def Columns.varchar (c : Columns) (n : ℕ) (s : String) : Bool := s.length ≤ n && c.text s

def isInt32 (n : ℤ) : Bool := -2147483648 ≤ n && n ≤ 2147483647

def isInt16 (n : ℤ) : Bool := -32768 ≤ n && n ≤ 32767

def Alert.encodes (c : Columns) (a : Alert) : Bool :=
  isInt16 a.severity && a.srcIp.all c.inet && a.dstIp.all c.inet
    && a.srcPort.all isInt32 && a.dstPort.all isInt32

def Alert.accepted (c : Columns) (a : Alert) : Bool :=
  c.varchar 256 a.sourceAlertId && c.varchar 64 a.fingerprint
    && a.ruleId.all (c.varchar 256) && a.ruleName.all (c.varchar 512)
    && a.severityRaw.all (c.varchar 64)
    && a.userName.all (c.varchar 256) && a.hostName.all (c.varchar 256)
    && a.processName.all (c.varchar 512) && a.processCmdline.all c.text
    && a.fileHash.all (c.varchar 64) && a.alertCategory.all (c.varchar 64)
    && c.jsonb a.normalizedFields && c.jsonb a.rawData

def Alert.fits (c : Columns) (a : Alert) : Bool := a.encodes c && a.accepted c

structure IngestLib where
  rt : Runtime
  pydantic : Pydantic
  searchAfter : SearchAfter
  columns : Columns
  /-- `int(text)` -/
  int : String → Option ℤ
  /-- `str(source.id)` -/
  uuid : ℕ → String
  /-- `get_geo_lookup().lookup(ip)`; no fields when nothing is known of the address. -/
  geo : String → Except Exn Document

structure BatchFaults where
  insertFault : Option Exn := none
  flushFault : Option Exn := none
  auditFault : Option Exn := none
  commitFault : Option Exn := none
  refreshFault : Option Exn := none

structure BatchEnv extends BatchFaults where
  /-- `adapter.pull(source.config, cursor)` -/
  pull : Json → CursorState → Except Exn PullResult
  /-- `adapter.map_to_normalized` on the document at a position, for a source and its name. -/
  map : ℕ → ℕ → String → Document → Except Exn NormalizedAlert
  now : Time

structure RunFaults where
  selectFault : Option Exn := none
  lockFault : Option Exn := none
  lockAcquired : Bool := true
  releaseFault : Option Exn := none
  validateFault : Option Exn := none

structure RunEnv extends RunFaults where
  batches : ℕ → BatchEnv

structure WazuhIndexerConfig where
  initialLookbackHours : ℤ
  batchSize : ℕ

/-- `WazuhIndexerConfig.model_validate(config)`, of the fields a search depends on. -/
def WazuhIndexerConfig.validate (p : Pydantic) (config : Json) : Option WazuhIndexerConfig := do
  let fields ← config.asObj?
  let _ ← (fields.get? "indexer_url").bind Json.asStr?
  let lookback ← readField fields "initial_lookback_hours" 24 p.readInt
  let size ← readField fields "batch_size" 500 p.readInt
  if 1 ≤ lookback ∧ lookback ≤ 168 ∧ 1 ≤ size ∧ size ≤ 5000 then some ⟨lookback, size.toNat⟩
  else none

structure WazuhBatch extends BatchFaults where
  index : List Doc
  pullFault : Option Exn := none
  clock : PullClock
  mapClock : ℕ → MapClock
  now : Time

structure WazuhRun extends RunFaults where
  batches : ℕ → WazuhBatch

section

variable (lib : IngestLib)

/-- `pull` -/
def WazuhBatch.pull (w : WazuhBatch) (config : Json) (cursor : CursorState) :
    Except Exn PullResult :=
  match w.pullFault, WazuhIndexerConfig.validate lib.pydantic config with
  | some e, _ => .error e
  | none, none => .error (.valueError "WazuhIndexerConfig")
  | none, some parsed =>
    (searchAlerts lib.rt lib.searchAfter parsed.initialLookbackHours w.index w.clock cursor
      (min 500 parsed.batchSize)).elim (.error .external) .ok

/-- `map_to_normalized`, at the times the clock shows for each document. -/
def wazuhMap (clock : ℕ → MapClock) (position i : ℕ) (name : String) (raw : Document) :
    Except Exn NormalizedAlert :=
  mapWazuhAlert lib.rt lib.int (lib.uuid i) name (clock position) raw

/-- A batch whose documents are mapped as those of a Wazuh source. -/
def BatchEnv.wazuh (clock : ℕ → MapClock) (env : BatchEnv) : BatchEnv :=
  { env with map := wazuhMap lib clock }

def WazuhBatch.env (w : WazuhBatch) : BatchEnv where
  toBatchFaults := w.toBatchFaults
  pull := w.pull lib
  map := wazuhMap lib w.mapClock
  now := w.now

def WazuhRun.env (run : WazuhRun) : RunEnv where
  toRunFaults := run.toRunFaults
  batches n := (run.batches n).env lib

end

/-- `enrich_src_geo` -/
def enrichSrcGeo (geo : String → Except Exn Document) (n : NormalizedAlert) :
    Except Exn NormalizedAlert :=
  match truthyText n.srcIp with
  | none => .ok n
  | some ip =>
    if (n.normalizedFields.get? "src_geo").any Json.isObj then .ok n
    else do
      let found ← geo ip
      if found.isEmpty then .ok n
      else
        let fields := match n.normalizedFields with
          | .obj fields => fields
          | _ => []
        .ok { n with normalizedFields := .obj (setField fields "src_geo" (.obj found)) }

/-- The exception of an outcome. -/
def raised {α : Type} : Except Exn α → Option Exn
  | .error e => some e
  | .ok _ => none

/-- The pulled documents and what mapping them gives. -/
def mapItems (env : BatchEnv) (i : ℕ) (name : String) (items : List Document) :
    List (Document × Except Exn NormalizedAlert) :=
  items.mapIdx fun position raw => (raw, env.map position i name raw)

/-- The mapped documents, with their mappings. -/
def mappedItems (mapped : List (Document × Except Exn NormalizedAlert)) :
    List (Document × NormalizedAlert) :=
  mapped.filterMap fun m => m.2.toOption.map fun n => (m.1, n)

def mapErrors (mapped : List (Document × Except Exn NormalizedAlert)) : List Exn :=
  mapped.filterMap fun m => raised m.2

namespace Ingest

section

variable (lib : IngestLib)

/-- `INSERT … ON CONFLICT DO NOTHING RETURNING id`, of all rows or none; the number inserted. -/
def insertRows (rows : List Alert) (fault : Option Exn) (db : IngestDb) :
    Except Exn (ℕ × IngestDb) :=
  if rows.all (Alert.fits lib.columns) then
    let alerts := insertNew db.alerts rows
    answer fault (alerts.length - db.alerts.length) { db with alerts := alerts }
  else .error .statement

/--
The insert of a batch, if it has rows. A value that the driver cannot encode is refused before the
statement is sent, so the transaction goes on; a value that the server refuses aborts it.
-/
def insertBatch (rows : List Alert) (fault : Option Exn) : Ingest ℕ :=
  if rows.isEmpty then pure 0
  else if rows.all (Alert.encodes lib.columns) then statement (insertRows lib rows fault)
  else Tx.raise .statement

/-- The update of `source.cursor_state`. -/
def saveCursor (i : ℕ) (state : Json) (fault : Option Exn) (db : IngestDb) :
    Except Exn (Unit × IngestDb) :=
  if lib.columns.jsonb state then
    answer fault () { db with
      dataSources := db.dataSources.modify i fun source => { source with cursorState := state } }
  else .error .statement

/-- `_get_source` -/
def getSource (i : ℕ) (fault : Option Exn) : Ingest (Option DataSource) :=
  statement fun db => answer fault db.dataSources[i]? db

/-- `session.refresh(source)` -/
def refresh (i : ℕ) (source : DataSource) (fault : Option Exn) : Ingest DataSource :=
  attemptStatement true fun db => answer fault (db.dataSources[i]?.getD source) db

/-- `session.flush()`, of one pending write. -/
def flush (f : IngestDb → Except Exn (Unit × IngestDb)) : Ingest Unit :=
  attemptStatement lib.rt.rollbackExpires f

/-- The row a mapped document is stored as. -/
def rowOf (env : BatchEnv) (i : ℕ) (n : NormalizedAlert) : Except Exn Alert :=
  (enrichSrcGeo lib.geo n).map (alertRow i env.now)

def batchResult (mapped : List (Document × Except Exn NormalizedAlert)) (pull : PullResult)
    (rows : List Alert) (inserted : ℕ) : IngestBatchResult where
  inserted := inserted
  duplicates := rows.length - inserted
  mapErrors := (mapErrors mapped).length
  fetched := pull.fetched
  hasMore := pull.hasMore
  errors := mapErrors mapped

def nextCursor (pull : PullResult) (cursor : CursorState) (inserted : ℕ) : CursorState :=
  { pull.nextCursor with totalIngested := cursor.totalIngested + inserted }

/-- `_run_batch`; also the source as it was refreshed. -/
def runBatch (i : ℕ) (source : DataSource) (cursor : CursorState) (env : BatchEnv) :
    Ingest (IngestBatchResult × DataSource) := do
  let pull ← outcome (env.pull source.config cursor)
  let mapped := mapItems env i source.name pull.items
  let rows ← outcome ((mappedItems mapped).mapM fun m => rowOf lib env i m.2)
  let inserted ← insertBatch lib rows env.insertFault
  let next := nextCursor pull cursor inserted
  flush lib (saveCursor lib i (next.dump lib.pydantic) env.flushFault)
  flush lib (answer env.auditFault ())
  commit env.commitFault
  Tx.write fun s => { s with seen := s.seen ++ (mappedItems mapped).map Prod.fst }
  let source ← refresh i source env.refreshFault
  pure (batchResult mapped pull rows inserted, source)

/-- The batches of one run, from the `n`-th on. -/
def runBatches (i : ℕ) (batches : ℕ → BatchEnv) :
    ℕ → ℕ → IngestRunResult → DataSource → CursorState → Ingest IngestRunResult
  | 0, _, result, _, _ => pure result
  | left + 1, n, result, source, cursor => do
    let (batch, source) ← runBatch lib i source cursor (batches n)
    let result := { result with batches := result.batches ++ [batch] }
    match CursorState.load lib.pydantic source.cursorState with
    | none => Tx.raise (.valueError "CursorState")
    | some cursor =>
      if batch.hasMore then runBatches i batches left (n + 1) result source cursor
      else pure result

/-- `_execute` -/
def execute (registered : List String) (i : ℕ) (source : DataSource) (maxBatches : ℕ)
    (env : RunEnv) : Ingest IngestRunResult := do
  if registered.contains source.adapterType then
    Tx.fallible env.validateFault
    match CursorState.load lib.pydantic source.cursorState with
    | none => Tx.raise (.valueError "CursorState")
    | some cursor =>
      runBatches lib i env.batches maxBatches 0 { dataSourceId := i } source cursor
  else Tx.raise (.keyError ("Unknown adapter_type '" ++ source.adapterType ++ "'"))

/-- `run_for_source` -/
def runForSource (registered : List String) (i maxBatches : ℕ) (useLock : Bool) (env : RunEnv) :
    Ingest IngestRunResult := do
  match ← getSource i env.selectFault with
  | none => Tx.raise (.valueError ("DataSource not found: " ++ lib.uuid i))
  | some source =>
    if !source.isActive then pure { dataSourceId := i, skippedInactive := true }
    else if useLock then
      Tx.fallible env.lockFault
      if env.lockAcquired then
        let run ← Tx.attempt (execute lib registered i source maxBatches env)
        Tx.fallible env.releaseFault
        outcome run
      else pure { dataSourceId := i, skippedLock := true }
    else execute lib registered i source maxBatches env

/-- The body of the loop of `run_all_active`; its `except` branch reads `source.name`. -/
def visit (registered : List String) (maxBatches : ℕ) (envs : ℕ → RunEnv) (x : ℕ × DataSource) :
    Ingest IngestRunResult :=
  if registered.contains x.2.adapterType then do
    match ← Tx.attempt (runForSource lib registered x.1 maxBatches true (envs x.1)) with
    | .ok result => pure result
    | .error e =>
      let expired ← Tx.read (·.expired)
      if expired && lib.rt.expiredReadRaises then Tx.raise .missingGreenlet
      else pure { dataSourceId := x.1, errors := [(x.2.name, e)] }
  else pure { dataSourceId := x.1, skippedNoAdapter := true }

/-- The loop of `run_all_active` over the sources it was given. -/
def runAll (registered : List String) (maxBatches : ℕ) (envs : ℕ → RunEnv) :
    List (ℕ × DataSource) → Ingest (List IngestRunResult)
  | [] => pure []
  | x :: xs => do
    let result ← visit lib registered maxBatches envs x
    let results ← runAll registered maxBatches envs xs
    pure (result :: results)

/-- `run_all_active`; the database gives the sources in an order of its own. -/
def runAllActive (registered : List String) (maxBatches : ℕ) (tie : ℕ → ℕ)
    (envs : ℕ → RunEnv) : Ingest (List IngestRunResult) := do
  let sources ← statement fun db => answer none
    ((db.dataSources.select fun _ source => source.isActive).insertionSort fun x y =>
      tie x.1 ≤ tie y.1) db
  runAll lib registered maxBatches envs sources

def freshCursor (total : Json) : Json :=
  .obj [
    ("version", .int 1),
    ("mode", .str "search_after"),
    ("last_occurred_at", .null),
    ("last_sort_values", .null),
    ("total_ingested", total)]

def resetCursor (cursorState : Json) : Json :=
  freshCursor (if cursorState.truthy then (cursorState.get? "total_ingested").getD (.int 0)
    else .int 0)

/-- What `extend_lookback` writes to a source. -/
def lookBack (lookbackHours : ℤ) (reset : Bool) (source : DataSource) : DataSource :=
  { source with
    config := .obj (setField (match source.config with
      | .obj fields => fields
      | _ => []) "initial_lookback_hours" (.int lookbackHours))
    cursorState := if reset then resetCursor source.cursorState else source.cursorState }

/-- `extend_lookback`, up to the diagnosis it returns. -/
def extendLookback (i : ℕ) (lookbackHours : ℤ) (reset : Bool)
    (selectFault flushFault commitFault : Option Exn) : Ingest Unit := do
  match ← getSource i selectFault with
  | none => Tx.raise (.valueError "DataSource not found")
  | some source =>
    if source.adapterType = "wazuh" then
      flush lib fun db => answer flushFault () { db with
        dataSources := db.dataSources.modify i fun _ => lookBack lookbackHours reset source }
      commit commitFault
    else Tx.raise (.valueError "仅 Wazuh 数据源支持调整回溯窗口")

end

end Ingest

/-- What `int` reads of a text of digits. -/
def sampleInt (s : String) : Option ℤ := (number? s.length s.toList).map Int.ofNat

def sampleColumns : Columns where
  text s := s.toList.all (· ≠ '\x00')
  inet s := s.toList.all fun c => isDigit c || c = '.'
  jsonb _ := true

def sampleLib : IngestLib where
  rt := sampleRuntime .free [("wazuh-prod|5710|203.0.113.7||||brute_force",
      "70b6522a8fb7c197d367b7bdff18864824e80d416f9f576c42394b1c944db8e2"),
    ("wazuh-dr|5710|203.0.113.7||||brute_force",
      "af7531bfecb19acaf17a4b8722c4ae9680ce7c9c32d6ffba6646cfe79d8cc5ac")]
  pydantic := samplePydantic
  searchAfter := sampleSearchAfter
  columns := sampleColumns
  int := sampleInt
  uuid _ := "5b1c0a52-77a5-4c55-9d57-0a4f6d4f0b11"
  geo _ := .ok []

def sampleSource : DataSource where
  name := "wazuh-prod"
  config := .obj [("indexer_url", .str "https://wazuh-indexer:9200")]

def loginFailure (id : String) (data : Document) : Document :=
  [("timestamp", .str "2026-01-01T00:00:00.000+0000"),
    ("rule", .obj [("id", .str "5710"), ("level", .int 5),
      ("description", .str "sshd: authentication failed"),
      ("groups", .arr [.str "authentication_failed"])]),
    ("data", .obj (("srcip", .str "203.0.113.7") :: data)),
    ("_id", .str id)]

def samplePull (items : List Document) : PullResult where
  items := items
  nextCursor := {
    lastOccurredAt := some 1767225600000000
    lastSuccessfulRunAt := some 1767268800000000 }
  fetched := items.length

def sampleMapClock (_ : ℕ) : MapClock where
  idAt := 1767268800000000
  occurredAt := 1767268800000000

def sampleBatch (items : List Document) : BatchEnv where
  pull _ _ := .ok (samplePull items)
  map := wazuhMap sampleLib sampleMapClock
  now := 1767268800000000

end Minsight

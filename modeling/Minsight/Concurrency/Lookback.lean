import Minsight.Foundation.Connections
import Minsight.Ingestion.Window

/-! # A run and a lookback reset side by side

An ingestion run reads its source, pulls, and writes the alerts and the cursor of each batch.
`extend_lookback` reads the same source and writes the config and the cursor; it takes no lock,
and the session writes only what differs from what it read. Nothing is lost while the row of the
source that a cursor is written to, or left as it is, is the row that was read.
-/

namespace Minsight

open Program Ingest

/-- The tables, and how often the source was updated, for an observer. -/
structure LookbackStore where
  db : IngestDb
  updates : ℕ := 0

inductive LookbackWrite
  | insertAlerts (rows : List Alert)
  /-- `UPDATE data_sources`, of the columns that were changed. -/
  | updateSource (config cursorState : Option Json)

def LookbackWrite.apply (i : ℕ) : LookbackWrite → LookbackStore → LookbackStore
  | .insertAlerts rows, s => { s with db := { s.db with alerts := insertNew s.db.alerts rows } }
  | .updateSource config cursorState, s => {
      db := { s.db with dataSources := s.db.dataSources.modify i fun source => { source with
        config := config.getD source.config
        cursorState := cursorState.getD source.cursorState } }
      updates := s.updates + 1 }

def LookbackWrite.row (i : ℕ) : LookbackWrite → Option ℕ
  | .insertAlerts _ => none
  | .updateSource _ _ => some i

/-- What an `UPDATE` sets a column to: nothing where the value is the one that was read. -/
def changed (old new : Json) : Option Json := if old.same new then none else some new

structure LoadedSource where
  source : DataSource
  updates : ℕ

inductive BatchStage
  | pull
  | insert (pull : PullResult) (rows : List Alert)
  | saveCursor (next : CursorState) (hasMore : Bool)
  | commit (hasMore : Bool)
  | refresh (hasMore : Bool)

inductive LookbackPoint
  | running (maxBatches : ℕ)
  | batch (left : ℕ) (loaded : LoadedSource) (cursor : CursorState) (stage : BatchStage)
  | extending
  | lookingBack (loaded : LoadedSource)
  | resetting
  /-- The reset is committed. -/
  | extended
  | ended

inductive LookbackAnswer
  | ok
  | fault
  /-- What a pull meets outside. -/
  | pulled (w : WazuhBatch)

section

variable (lib : IngestLib) (i : ℕ) (lookbackHours : ℤ)

/-- Where a run goes on with a source that it has read, if it can read its cursor. -/
def nextBatch (left : ℕ) (loaded : LoadedSource) : LookbackPoint :=
  match left, CursorState.load lib.pydantic loaded.source.cursorState with
  | left + 1, some cursor => .batch left loaded cursor .pull
  | _, _ => .ended

/--
The statements of `run_for_source`, which holds the ingestion lock, and of `extend_lookback`, for
a Wazuh source. A source that the session has loaded is not read again by a select; only a refresh
reads it. The entry in the audit log is left out.
-/
def lookbackStatement : LookbackAnswer → LookbackStore → LookbackPoint →
    Option (Statement LookbackWrite LookbackPoint)
  | _, _, .ended => none
  | _, _, .extended => none
  | .fault, _, _ => some (.abort .ended)
  | .ok, s, .running maxBatches =>
    match s.db.dataSources[i]? with
    | none => some (.abort .ended)
    | some source =>
      if source.isActive && source.adapterType == "wazuh" then
        some (.read (nextBatch lib maxBatches ⟨source, s.updates⟩))
      else some (.abort .ended)
  | .pulled w, _, .batch left loaded cursor .pull =>
    match w.pull lib loaded.source.config cursor with
    | .error _ => some (.abort .ended)
    | .ok pull =>
      match (mappedItems (mapItems (w.env lib) i loaded.source.name pull.items)).mapM
          fun m => rowOf lib (w.env lib) i m.2 with
      | .error _ => some (.abort .ended)
      | .ok rows => some (.read (.batch left loaded cursor (.insert pull rows)))
  | .ok, s, .batch left loaded cursor (.insert pull rows) =>
    match insertRows lib rows none s.db with
    | .error _ => some (.abort .ended)
    | .ok (inserted, _) =>
      some (.write [.insertAlerts rows] (.batch left loaded cursor
        (.saveCursor (nextCursor pull cursor inserted) pull.hasMore)))
  | .ok, _, .batch left loaded cursor (.saveCursor next hasMore) =>
    match changed loaded.source.cursorState (next.dump lib.pydantic) with
    | none => some (.read (.batch left loaded cursor (.commit hasMore)))
    | some state =>
      if lib.columns.jsonb state then
        some (.write [.updateSource none (some state)]
          (.batch left loaded cursor (.commit hasMore)))
      else some (.abort .ended)
  | .ok, _, .batch left loaded cursor (.commit hasMore) =>
    some (.commit (.batch left loaded cursor (.refresh hasMore)))
  | .ok, s, .batch left _ _ (.refresh hasMore) =>
    match s.db.dataSources[i]? with
    | none => some (.abort .ended)
    | some source =>
      some (.read (if hasMore then nextBatch lib left ⟨source, s.updates⟩ else .ended))
  | .ok, s, .extending =>
    match s.db.dataSources[i]? with
    | none => some (.abort .ended)
    | some source =>
      if source.adapterType == "wazuh" then some (.read (.lookingBack ⟨source, s.updates⟩))
      else some (.abort .ended)
  | .ok, _, .lookingBack loaded =>
    let new := lookBack lookbackHours true loaded.source
    match changed loaded.source.config new.config,
        changed loaded.source.cursorState new.cursorState with
    | none, none => some (.read .resetting)
    | config, cursorState => some (.write [.updateSource config cursorState] .resetting)
  | .ok, _, .resetting => some (.commit .extended)
  | _, _, _ => none

def lookbackProgram : Program LookbackStore ℕ LookbackWrite LookbackPoint LookbackAnswer where
  apply := LookbackWrite.apply i
  row := LookbackWrite.row i
  statement := lookbackStatement lib i lookbackHours

def lookbackInit (maxBatches : ℕ) (db : IngestDb) :
    Shared LookbackStore LookbackWrite LookbackPoint where
  db := { db := db }
  connections := [{ point := .running maxBatches }, { point := .extending }]

def lookbackSystem (maxBatches : ℕ) (db : IngestDb) :
    System (Shared LookbackStore LookbackWrite LookbackPoint) (ℕ × LookbackAnswer) :=
  (lookbackProgram lib i lookbackHours).system (lookbackInit maxBatches db)

def LookbackPoint.readsSource : LookbackPoint → Bool
  | .running _ => true
  | .batch _ _ _ (.refresh _) => true
  | _ => false

def LookbackPoint.isExtended : LookbackPoint → Bool
  | .extended => true
  | _ => false

def LookbackPoint.finished : LookbackPoint → Bool
  | .extended | .ended => true
  | _ => false

/-- What a connection can do at a point, and what it has seen when it does it. -/
inductive LookbackMove (s : LookbackStore) :
    LookbackAnswer → LookbackPoint → Statement LookbackWrite LookbackPoint → Prop
  | stop (a : LookbackAnswer) (point : LookbackPoint) : LookbackMove s a point (.abort .ended)
  | finish (a : LookbackAnswer) (point : LookbackPoint) : LookbackMove s a point (.read .ended)
  | load {point : LookbackPoint} {left : ℕ} {loaded : LoadedSource} {cursor : CursorState}
      (reads : point.readsSource = true)
      (source : s.db.dataSources[i]? = some loaded.source) (updates : loaded.updates = s.updates)
      (cursorState : CursorState.load lib.pydantic loaded.source.cursorState = some cursor) :
      LookbackMove s .ok point (.read (.batch left loaded cursor .pull))
  | pull {left : ℕ} {loaded : LoadedSource} {cursor : CursorState} {w : WazuhBatch}
      {pull : PullResult} {rows : List Alert}
      (pulled : w.pull lib loaded.source.config cursor = .ok pull)
      (mapped : (mappedItems (mapItems (w.env lib) i loaded.source.name pull.items)).mapM
        (fun m => rowOf lib (w.env lib) i m.2) = .ok rows) :
      LookbackMove s (.pulled w) (.batch left loaded cursor .pull)
        (.read (.batch left loaded cursor (.insert pull rows)))
  | insert (left : ℕ) (loaded : LoadedSource) (cursor : CursorState) (pull : PullResult)
      (rows : List Alert) (inserted : ℕ) :
      LookbackMove s .ok (.batch left loaded cursor (.insert pull rows))
        (.write [.insertAlerts rows] (.batch left loaded cursor
          (.saveCursor (nextCursor pull cursor inserted) pull.hasMore)))
  | keepCursor (left : ℕ) (loaded : LoadedSource) (cursor next : CursorState) (hasMore : Bool) :
      LookbackMove s .ok (.batch left loaded cursor (.saveCursor next hasMore))
        (.read (.batch left loaded cursor (.commit hasMore)))
  | saveCursor (left : ℕ) (loaded : LoadedSource) (cursor : CursorState) {next : CursorState}
      (hasMore : Bool)
      (changed : loaded.source.cursorState.same (next.dump lib.pydantic) = false) :
      LookbackMove s .ok (.batch left loaded cursor (.saveCursor next hasMore))
        (.write [.updateSource none (some (next.dump lib.pydantic))]
          (.batch left loaded cursor (.commit hasMore)))
  | commit (left : ℕ) (loaded : LoadedSource) (cursor : CursorState) (hasMore : Bool) :
      LookbackMove s .ok (.batch left loaded cursor (.commit hasMore))
        (.commit (.batch left loaded cursor (.refresh hasMore)))
  | find {loaded : LoadedSource} (source : s.db.dataSources[i]? = some loaded.source)
      (updates : loaded.updates = s.updates) :
      LookbackMove s .ok .extending (.read (.lookingBack loaded))
  | keepSource {loaded : LoadedSource}
      (config : changed loaded.source.config
        (lookBack lookbackHours true loaded.source).config = none)
      (cursorState : changed loaded.source.cursorState
        (resetCursor loaded.source.cursorState) = none) :
      LookbackMove s .ok (.lookingBack loaded) (.read .resetting)
  | lookBack (loaded : LoadedSource) :
      LookbackMove s .ok (.lookingBack loaded)
        (.write [.updateSource
          (changed loaded.source.config (lookBack lookbackHours true loaded.source).config)
          (changed loaded.source.cursorState (resetCursor loaded.source.cursorState))] .resetting)
  | reset : LookbackMove s .ok .resetting (.commit .extended)

end

section

variable {lib : IngestLib} {i : ℕ} {lookbackHours : ℤ} {a : LookbackAnswer} {s : LookbackStore}
  {point : LookbackPoint} {statement : Statement LookbackWrite LookbackPoint}

theorem changed_of_same {old new : Json} (h : old.same new = true) : changed old new = none :=
  if_pos h

theorem changed_of_not_same {old new : Json} (h : old.same new = false) :
    changed old new = some new :=
  if_neg (Bool.eq_false_iff.mp h)

theorem nextBatch_cases (left : ℕ) (loaded : LoadedSource) :
    nextBatch lib left loaded = .ended ∨
      ∃ left' cursor, CursorState.load lib.pydantic loaded.source.cursorState = some cursor ∧
        nextBatch lib left loaded = .batch left' loaded cursor .pull := by
  unfold nextBatch
  split
  · rename_i left' cursor hload
    exact .inr ⟨left', cursor, hload, rfl⟩
  · exact .inl rfl

theorem move_of_nextBatch {left : ℕ} {source : DataSource} (hreads : point.readsSource = true)
    (hsource : s.db.dataSources[i]? = some source) :
    LookbackMove lib i lookbackHours s .ok point
      (.read (nextBatch lib left ⟨source, s.updates⟩)) := by
  rcases nextBatch_cases left ⟨source, s.updates⟩ with h | ⟨left', cursor, hload, h⟩
  · rw [h]
    exact .finish _ _
  · rw [h]
    exact .load hreads hsource rfl hload

theorem move_of_statement (h : lookbackStatement lib i lookbackHours a s point = some statement) :
    LookbackMove lib i lookbackHours s a point statement := by
  unfold lookbackStatement at h
  split at h
  · cases h
  · cases h
  · obtain rfl := Option.some.inj h
    exact .stop _ _
  · split at h
    · obtain rfl := Option.some.inj h
      exact .stop _ _
    · rename_i hsource
      split at h
      · obtain rfl := Option.some.inj h
        exact move_of_nextBatch rfl hsource
      · obtain rfl := Option.some.inj h
        exact .stop _ _
  · split at h
    · obtain rfl := Option.some.inj h
      exact .stop _ _
    · rename_i hpull
      split at h
      · obtain rfl := Option.some.inj h
        exact .stop _ _
      · rename_i hrows
        obtain rfl := Option.some.inj h
        exact .pull hpull hrows
  · split at h
    · obtain rfl := Option.some.inj h
      exact .stop _ _
    · obtain rfl := Option.some.inj h
      exact .insert _ _ _ _ _ _
  · split at h
    · obtain rfl := Option.some.inj h
      exact .keepCursor _ _ _ _ _
    · rename_i hchanged
      unfold changed at hchanged
      split at hchanged
      · cases hchanged
      · rename_i hsame
        obtain rfl := Option.some.inj hchanged
        split at h
        · obtain rfl := Option.some.inj h
          exact .saveCursor _ _ _ _ (Bool.eq_false_iff.mpr hsame)
        · obtain rfl := Option.some.inj h
          exact .stop _ _
  · obtain rfl := Option.some.inj h
    exact .commit _ _ _ _
  · split at h
    · obtain rfl := Option.some.inj h
      exact .stop _ _
    · rename_i hsource
      obtain rfl := Option.some.inj h
      split
      · exact move_of_nextBatch rfl hsource
      · exact .finish _ _
  · split at h
    · obtain rfl := Option.some.inj h
      exact .stop _ _
    · rename_i hsource
      split at h
      · obtain rfl := Option.some.inj h
        exact .find hsource rfl
      · obtain rfl := Option.some.inj h
        exact .stop _ _
  · dsimp only at h
    split at h
    · rename_i hconfig hcursor
      obtain rfl := Option.some.inj h
      exact .keepSource hconfig hcursor
    · obtain rfl := Option.some.inj h
      exact .lookBack _
  · obtain rfl := Option.some.inj h
    exact .reset
  · cases h

end

section

variable (lib : IngestLib) (i : ℕ) (lookbackHours : ℤ) (d : Doc) (id : String)

/-- A source that pulls can start from after a reset. -/
structure Resettable (source : DataSource) : Prop where
  config : (WazuhIndexerConfig.validate lib.pydantic source.config).isSome
  total : KeepsTotal lib.pydantic source.cursorState

def Kept (s : LookbackStore) : Prop :=
  Ingest.StoredAs i id s.db.alerts ∨
    ∃ source, s.db.dataSources[i]? = some source ∧ YetToCome lib lookbackHours source d

/-- Unless it was updated since, the row of the source is the one that was read. -/
structure Current (s : LookbackStore) (loaded : LoadedSource) : Prop where
  le : loaded.updates ≤ s.updates
  row : loaded.updates = s.updates → s.db.dataSources[i]? = some loaded.source

/-- With these rows and this cursor a batch stores the document or leaves it yet to come. -/
def BatchSettles (source : DataSource) (rows : List Alert) (state : Json) : Prop :=
  YetToCome lib lookbackHours source d → Ingest.StoredAs i id rows ∨
    YetToCome lib lookbackHours { source with cursorState := state } d

/-- The config of the row is the one that was read, or looks back far enough already. -/
def ConfigKnown (s : LookbackStore) (loaded : LoadedSource) : Prop :=
  ∀ source, s.db.dataSources[i]? = some source →
    source.config = loaded.source.config ∨ LooksBack lib lookbackHours source.config

structure ResetColumns (config cursorState : Option Json) : Prop where
  config : ∀ c, config = some c → LooksBack lib lookbackHours c
  cursorState : ∀ c, cursorState = some c → KeepsTotal lib.pydantic c

/-- What holds at a point, with what the open transaction has written. -/
inductive LookbackKnows (s : LookbackStore) : LookbackPoint → List LookbackWrite → Prop
  | running (maxBatches : ℕ) : LookbackKnows s (.running maxBatches) []
  | pull (left : ℕ) {loaded : LoadedSource} {cursor : CursorState} (current : Current i s loaded)
      (cursorState : CursorState.load lib.pydantic loaded.source.cursorState = some cursor) :
      LookbackKnows s (.batch left loaded cursor .pull) []
  | insert (left : ℕ) {loaded : LoadedSource} {cursor : CursorState} {pull : PullResult}
      {rows : List Alert} (current : Current i s loaded)
      (settles : ∀ inserted, BatchSettles lib i lookbackHours d id loaded.source rows
        ((nextCursor pull cursor inserted).dump lib.pydantic)) :
      LookbackKnows s (.batch left loaded cursor (.insert pull rows)) []
  | saveCursor (left : ℕ) {loaded : LoadedSource} (cursor : CursorState) {next : CursorState}
      (hasMore : Bool) {rows : List Alert} (current : Current i s loaded)
      (settles : BatchSettles lib i lookbackHours d id loaded.source rows
        (next.dump lib.pydantic)) :
      LookbackKnows s (.batch left loaded cursor (.saveCursor next hasMore)) [.insertAlerts rows]
  | cursorKept (left : ℕ) (loaded : LoadedSource) (cursor : CursorState) (hasMore : Bool)
      (rows : List Alert) :
      LookbackKnows s (.batch left loaded cursor (.commit hasMore)) [.insertAlerts rows]
  | cursorSaved (left : ℕ) {loaded : LoadedSource} (cursor : CursorState) {next : CursorState}
      (hasMore : Bool) {rows : List Alert} (row : s.db.dataSources[i]? = some loaded.source)
      (settles : BatchSettles lib i lookbackHours d id loaded.source rows
        (next.dump lib.pydantic)) :
      LookbackKnows s (.batch left loaded cursor (.commit hasMore))
        [.insertAlerts rows, .updateSource none (some (next.dump lib.pydantic))]
  | refresh (left : ℕ) (loaded : LoadedSource) (cursor : CursorState) (hasMore : Bool) :
      LookbackKnows s (.batch left loaded cursor (.refresh hasMore)) []
  | extending : LookbackKnows s .extending []
  | lookingBack {loaded : LoadedSource} (current : Current i s loaded)
      (resettable : Resettable lib loaded.source)
      (config : ConfigKnown lib i lookbackHours s loaded) :
      LookbackKnows s (.lookingBack loaded) []
  | unchanged (kept : Kept lib i lookbackHours d id s) : LookbackKnows s .resetting []
  | resetting {config cursorState : Option Json}
      (columns : ResetColumns lib lookbackHours config cursorState)
      (kept : Kept lib i lookbackHours d id
        ((LookbackWrite.updateSource config cursorState).apply i s)) :
      LookbackKnows s .resetting [.updateSource config cursorState]
  | extended (kept : Kept lib i lookbackHours d id s) : LookbackKnows s .extended []
  | ended (log : List LookbackWrite) : LookbackKnows s .ended log

/-- The source is there, and pulls can start from it after a reset. -/
def SourceReady (s : LookbackStore) : Prop :=
  ∃ source, s.db.dataSources[i]? = some source ∧ Resettable lib source

end

section

variable {lib : IngestLib} {i : ℕ} {lookbackHours : ℤ} {d : Doc} {id : String}
  {s s' : LookbackStore} {loaded : LoadedSource} {source : DataSource} {rows : List Alert}
  {config cursorState : Option Json} {log log' : List LookbackWrite} {point : LookbackPoint}

theorem row_updateSource (h : s.db.dataSources[i]? = some source) :
    ((LookbackWrite.updateSource config cursorState).apply i s).db.dataSources[i]? =
      some { source with
        config := config.getD source.config
        cursorState := cursorState.getD source.cursorState } := by
  simp [LookbackWrite.apply, List.getElem?_modify_eq, h]

theorem Kept.mono (h : Kept lib i lookbackHours d id s)
    (halerts : Ingest.StoredAs i id s.db.alerts → Ingest.StoredAs i id s'.db.alerts)
    (hrow : s'.db.dataSources[i]? = s.db.dataSources[i]?) : Kept lib i lookbackHours d id s' := by
  rcases h with h | ⟨source, hsource, hcome⟩
  · exact .inl (halerts h)
  · exact .inr ⟨source, hrow.trans hsource, hcome⟩

theorem Kept.insertAlerts (h : Kept lib i lookbackHours d id s) (rows : List Alert) :
    Kept lib i lookbackHours d id ((LookbackWrite.insertAlerts rows).apply i s) :=
  h.mono (fun hstored => hstored.after_insert rows) rfl

theorem Kept.saveCursor {state : Json} (h : Kept lib i lookbackHours d id s)
    (hrow : s.db.dataSources[i]? = some source)
    (hsettles : BatchSettles lib i lookbackHours d id source rows state) :
    Kept lib i lookbackHours d id ((LookbackWrite.updateSource none (some state)).apply i
      ((LookbackWrite.insertAlerts rows).apply i s)) := by
  rcases h with h | ⟨source', hsource', hcome⟩
  · exact .inl (h.after_insert rows)
  · obtain rfl := Option.some.inj (hrow.symm.trans hsource')
    rcases hsettles hcome with hstored | hcome
    · exact .inl (hstored.of_inserted _)
    · exact .inr ⟨_, row_updateSource hrow, hcome⟩

abbrev applied (lib : IngestLib) (i : ℕ) (lookbackHours : ℤ) (log : List LookbackWrite)
    (s : LookbackStore) : LookbackStore :=
  (lookbackProgram lib i lookbackHours).applyAll log s

theorem updates_le_applied (log : List LookbackWrite) (s : LookbackStore) :
    s.updates ≤ (applied lib i lookbackHours log s).updates := by
  induction log generalizing s with
  | nil => exact le_rfl
  | cons w log ih =>
    rw [applied, applyAll_cons]
    refine le_trans ?_ (ih _)
    cases w with
    | insertAlerts rows => exact le_rfl
    | updateSource config cursorState => exact Nat.le_succ _

theorem dataSources_applied (log : List LookbackWrite) {s : LookbackStore}
    (h : (applied lib i lookbackHours log s).updates = s.updates) :
    (applied lib i lookbackHours log s).db.dataSources = s.db.dataSources := by
  induction log generalizing s with
  | nil => rfl
  | cons w log ih =>
    rw [applied, applyAll_cons] at h ⊢
    cases w with
    | insertAlerts rows => exact ih h
    | updateSource config cursorState =>
      have hle := @updates_le_applied lib i lookbackHours log
        ((LookbackWrite.updateSource config cursorState).apply i s)
      have hlt : s.updates < ((LookbackWrite.updateSource config cursorState).apply i s).updates :=
        Nat.lt_succ_self _
      exact absurd h (ne_of_gt (lt_of_lt_of_le hlt hle))

theorem Current.after (h : Current i s loaded) (log : List LookbackWrite) :
    Current i (applied lib i lookbackHours log s) loaded := by
  have hle := @updates_le_applied lib i lookbackHours log s
  refine ⟨h.le.trans hle, fun heq => ?_⟩
  have hsame := le_antisymm (heq ▸ h.le) hle
  rw [dataSources_applied log hsame]
  exact h.row (heq.trans hsame)

section

variable (lib : IngestLib) (i : ℕ) (lookbackHours : ℤ) (d : Doc) (id : String)

inductive LookbackEffect (s : LookbackStore) : List LookbackWrite → Prop
  | nothing (kept : Kept lib i lookbackHours d id s) : LookbackEffect s []
  | stored (rows : List Alert) : LookbackEffect s [.insertAlerts rows]
  | saved {source : DataSource} {rows : List Alert} {next : CursorState}
      (row : s.db.dataSources[i]? = some source)
      (settles : BatchSettles lib i lookbackHours d id source rows (next.dump lib.pydantic)) :
      LookbackEffect s [.insertAlerts rows, .updateSource none (some (next.dump lib.pydantic))]
  | reset {config cursorState : Option Json}
      (columns : ResetColumns lib lookbackHours config cursorState)
      (kept : Kept lib i lookbackHours d id
        ((LookbackWrite.updateSource config cursorState).apply i s)) :
      LookbackEffect s [.updateSource config cursorState]

end

theorem LookbackEffect.kept (h : LookbackEffect lib i lookbackHours d id s log)
    (hkept : Kept lib i lookbackHours d id s) :
    Kept lib i lookbackHours d id (applied lib i lookbackHours log s) := by
  cases h with
  | nothing kept => exact kept
  | stored rows => exact hkept.insertAlerts rows
  | saved row settles => exact hkept.saveCursor row settles
  | reset _ kept => exact kept

theorem LookbackEffect.sourceReady (h : LookbackEffect lib i lookbackHours d id s log)
    (hready : SourceReady lib i s) :
    SourceReady lib i (applied lib i lookbackHours log s) := by
  cases h with
  | nothing _ => exact hready
  | stored rows => exact hready
  | saved row _ =>
    obtain ⟨source, hsource, hresettable⟩ := hready
    exact ⟨_, row_updateSource hsource, hresettable.config, keepsTotal_dump⟩
  | @reset config cursorState columns _ =>
    obtain ⟨source, hsource, hresettable⟩ := hready
    refine ⟨_, row_updateSource hsource, ?_, ?_⟩
    · cases config with
      | none => exact hresettable.config
      | some c =>
        obtain ⟨parsed, hparsed, -⟩ := columns.config c rfl
        exact Option.isSome_iff_exists.mpr ⟨parsed, hparsed⟩
    · cases cursorState with
      | none => exact hresettable.total
      | some c => exact columns.cursorState c rfl

theorem ConfigKnown.effect (h : ConfigKnown lib i lookbackHours s loaded)
    (heffect : LookbackEffect lib i lookbackHours d id s log) (hready : SourceReady lib i s) :
    ConfigKnown lib i lookbackHours (applied lib i lookbackHours log s) loaded := by
  obtain ⟨source, hsource, -⟩ := hready
  intro source' hsource'
  cases heffect with
  | nothing _ => exact h source' hsource'
  | stored rows => exact h source' hsource'
  | saved row _ =>
    obtain rfl := Option.some.inj ((row_updateSource hsource).symm.trans hsource')
    exact h source hsource
  | @reset config cursorState columns _ =>
    obtain rfl := Option.some.inj ((row_updateSource hsource).symm.trans hsource')
    cases config with
    | none => exact h source hsource
    | some c => exact .inr (columns.config c rfl)

/-- What a connection knows survives the commit of another one that has locked none of its rows. -/
theorem LookbackKnows.interfere (h : LookbackKnows lib i lookbackHours d id s point log')
    (heffect : LookbackEffect lib i lookbackHours d id s log) (hready : SourceReady lib i s)
    (hrows : List.Disjoint ((lookbackProgram lib i lookbackHours).locked log)
      ((lookbackProgram lib i lookbackHours).locked log')) :
    LookbackKnows lib i lookbackHours d id (applied lib i lookbackHours log s) point
      log' := by
  cases h with
  | running n => exact .running n
  | pull left current hload => exact .pull left (current.after log) hload
  | insert left current settles => exact .insert left (current.after log) settles
  | saveCursor left cursor hasMore current settles =>
    exact .saveCursor left cursor hasMore (current.after log) settles
  | cursorKept left loaded cursor hasMore rows => exact .cursorKept left loaded cursor hasMore rows
  | cursorSaved left cursor hasMore row settles =>
    refine .cursorSaved left cursor hasMore ?_ settles
    cases heffect with
    | nothing _ => exact row
    | stored rows => exact row
    | saved _ _ => exact absurd (List.mem_singleton_self i) (hrows (List.mem_singleton_self i))
    | reset _ _ => exact absurd (List.mem_singleton_self i) (hrows (List.mem_singleton_self i))
  | refresh left loaded cursor hasMore => exact .refresh left loaded cursor hasMore
  | extending => exact .extending
  | lookingBack current resettable config =>
    exact .lookingBack (current.after log) resettable (config.effect heffect hready)
  | unchanged kept => exact .unchanged (heffect.kept kept)
  | resetting columns kept =>
    cases heffect with
    | nothing _ => exact .resetting columns kept
    | stored rows => exact .resetting columns (kept.mono (fun hs => hs.after_insert rows) rfl)
    | saved _ _ => exact absurd (List.mem_singleton_self i) (hrows (List.mem_singleton_self i))
    | reset _ _ => exact absurd (List.mem_singleton_self i) (hrows (List.mem_singleton_self i))
  | extended kept => exact .extended (heffect.kept kept)
  | ended log' => exact .ended log'

section

variable {j : ℕ} {a : LookbackAnswer} {c : Connection LookbackWrite LookbackPoint}
  {st : Shared LookbackStore LookbackWrite LookbackPoint}

variable (lib i lookbackHours d id) in
/-- What a pull meets while the source holds the document and pulls look back to it. -/
def Holds : LookbackAnswer → Prop
  | .pulled w => d ∈ w.index ∧ Inside lookbackHours w.clock d
  | _ => True

variable (lib i d id) in
/--
A pull does not go past the document, and the row of the source is the one that was read when a
run saves its cursor and when a reset leaves the cursor as it is.
-/
def keepsTo (updates : ℕ) : LookbackPoint → LookbackAnswer → Bool
  | .batch _ loaded cursor .pull, .pulled w => goesNoFurther lib i id loaded.source cursor d w
  | .batch _ loaded _ (.saveCursor next _), .ok =>
    loaded.source.cursorState.same (next.dump lib.pydantic) || loaded.updates == updates
  | .lookingBack loaded, .ok =>
    !loaded.source.cursorState.same (resetCursor loaded.source.cursorState) ||
      loaded.updates == updates
  | _, _ => true

variable (lib i d id) in
def undisturbed (st : Shared LookbackStore LookbackWrite LookbackPoint) (l : ℕ × LookbackAnswer) :
    Bool :=
  (st.connections[l.1]?).all fun c => keepsTo lib i d id st.db.updates c.point l.2

theorem LookbackKnows.log_eq_nil (h : LookbackKnows lib i lookbackHours d id s point log)
    (hreads : point.readsSource = true) : log = [] := by
  cases h with
  | running _ => rfl
  | refresh _ _ _ _ => rfl
  | _ => cases hreads

theorem yetToCome_lookBack (hints : ReadsEqualInts lib.pydantic)
    (hhours : 1 ≤ lookbackHours ∧ lookbackHours ≤ 168) (hloaded : Resettable lib loaded.source)
    (hcurrent : Current i s loaded) (hconfig : ConfigKnown lib i lookbackHours s loaded)
    (hrow : s.db.dataSources[i]? = some source)
    (hguard : loaded.source.cursorState.same (resetCursor loaded.source.cursorState) = true →
      loaded.updates = s.updates) :
    YetToCome lib lookbackHours { source with
      config := (changed loaded.source.config
        (lookBack lookbackHours true loaded.source).config).getD source.config
      cursorState := (changed loaded.source.cursorState
        (resetCursor loaded.source.cursorState)).getD source.cursorState } d := by
  have hlooks : LooksBack lib lookbackHours ((changed loaded.source.config
      (lookBack lookbackHours true loaded.source).config).getD source.config) := by
    unfold changed
    split
    · rename_i hsame
      rcases hconfig source hrow with h | h
      · rw [Option.getD_none, h]
        exact looksBack_of_same hints hloaded.config hsame
      · exact h
    · exact looksBack_lookBack hhours hloaded.config
  cases hsame : loaded.source.cursorState.same (resetCursor loaded.source.cursorState) with
  | true =>
    have hsource := hcurrent.row (hguard hsame)
    obtain rfl := Option.some.inj (hrow.symm.trans hsource)
    obtain ⟨cursor, hload, hoccurred, hsort⟩ := load_of_same hints hloaded.total hsame
    refine yetToCome_of_fresh hlooks ?_ hoccurred hsort
    rw [changed_of_same hsame]
    exact hload
  | false =>
    have hreset : (changed loaded.source.cursorState
        (resetCursor loaded.source.cursorState)).getD source.cursorState =
          resetCursor loaded.source.cursorState := by
      rw [changed_of_not_same hsame, Option.getD_some]
    exact yetToCome_of_reset hlooks hloaded.total hreset

theorem resetColumns_lookBack (hhours : 1 ≤ lookbackHours ∧ lookbackHours ≤ 168)
    (hloaded : Resettable lib loaded.source) :
    ResetColumns lib lookbackHours
      (changed loaded.source.config (lookBack lookbackHours true loaded.source).config)
      (changed loaded.source.cursorState (resetCursor loaded.source.cursorState)) := by
  constructor <;> intro c hc <;> unfold changed at hc <;> split at hc
  · cases hc
  · obtain rfl := Option.some.inj hc
    exact looksBack_lookBack hhours hloaded.config
  · cases hc
  · obtain rfl := Option.some.inj hc
    exact keepsTotal_reset hloaded.total

theorem LookbackKnows.step {statement : Statement LookbackWrite LookbackPoint}
    (hints : ReadsEqualInts lib.pydantic) (hhours : 1 ≤ lookbackHours ∧ lookbackHours ≤ 168)
    (hid : docId lib.rt (normalizeHit d) = some id) (hready : SourceReady lib i s)
    (hholds : Holds lookbackHours d a) (hguard : keepsTo lib i d id s.updates point a = true)
    (h : LookbackKnows lib i lookbackHours d id s point log)
    (hmove : LookbackMove lib i lookbackHours (applied lib i lookbackHours log s) a point
      statement) :
    match statement with
    | .read q => LookbackKnows lib i lookbackHours d id s q log
    | .write ws q => LookbackKnows lib i lookbackHours d id s q (log ++ ws)
    | .commit q => LookbackEffect lib i lookbackHours d id s log ∧
        LookbackKnows lib i lookbackHours d id (applied lib i lookbackHours log s) q []
    | .abort q => LookbackKnows lib i lookbackHours d id s q [] := by
  cases hmove with
  | stop a point => exact .ended []
  | finish a point => exact .ended log
  | load hreads hsource hupdates hload =>
    obtain rfl := h.log_eq_nil hreads
    exact .pull _ ⟨hupdates.le, fun _ => hsource⟩ hload
  | @pull left loaded cursor w pull rows hpull hrows =>
    cases h with
    | pull _ hcurrent hload =>
      refine .insert left hcurrent fun inserted hcome => ?_
      rcases batch_settles hid hholds.1 hholds.2 hload hguard hpull hrows hcome with hs | hs
      · exact .inl hs
      · exact .inr (hs inserted)
  | insert left loaded cursor pull rows inserted =>
    cases h with
    | insert _ hcurrent hsettles =>
      exact .saveCursor left cursor pull.hasMore hcurrent (hsettles inserted)
  | keepCursor left loaded cursor next hasMore =>
    cases h with
    | saveCursor _ _ _ _ _ => exact .cursorKept left loaded cursor hasMore _
  | @saveCursor left loaded cursor next hasMore hchanged =>
    cases h with
    | saveCursor _ _ _ hcurrent hsettles =>
      rw [keepsTo, hchanged, Bool.false_or, beq_iff_eq] at hguard
      exact .cursorSaved left cursor hasMore (hcurrent.row hguard) hsettles
  | commit left loaded cursor hasMore =>
    refine ⟨?_, .refresh left loaded cursor hasMore⟩
    cases h with
    | cursorKept _ _ _ _ rows => exact .stored rows
    | cursorSaved _ _ _ hrow hsettles => exact .saved hrow hsettles
  | find hsource hupdates =>
    cases h with
    | extending =>
      obtain ⟨source, hrow, hresettable⟩ := hready
      obtain rfl := Option.some.inj (hrow.symm.trans hsource)
      refine .lookingBack ⟨hupdates.le, fun _ => hsource⟩ hresettable fun source' hsource' => ?_
      exact .inl (congrArg _ (Option.some.inj (hsource'.symm.trans hrow)))
  | keepSource hconfig hcursor =>
    cases h with
    | lookingBack hcurrent hresettable hknown =>
      obtain ⟨source, hrow, -⟩ := hready
      have hcome := yetToCome_lookBack (d := d) hints hhours hresettable hcurrent hknown hrow
        fun hsame => by rw [keepsTo, hsame] at hguard; simpa using hguard
      rw [hconfig, hcursor] at hcome
      exact .unchanged (.inr ⟨source, hrow, hcome⟩)
  | lookBack loaded =>
    cases h with
    | lookingBack hcurrent hresettable hknown =>
      obtain ⟨source, hrow, -⟩ := hready
      have hcome := yetToCome_lookBack (d := d) hints hhours hresettable hcurrent hknown hrow
        fun hsame => by rw [keepsTo, hsame] at hguard; simpa using hguard
      exact .resetting (resetColumns_lookBack hhours hresettable)
        (.inr ⟨_, row_updateSource hrow, hcome⟩)
  | reset =>
    cases h with
    | unchanged hkept => exact ⟨.nothing hkept, .extended hkept⟩
    | resetting hcolumns hkept => exact ⟨.reset hcolumns hkept, .extended hkept⟩

theorem lookbackOutline (hints : ReadsEqualInts lib.pydantic)
    (hhours : 1 ≤ lookbackHours ∧ lookbackHours ≤ 168)
    (hid : docId lib.rt (normalizeHit d) = some id) :
    (lookbackProgram lib i lookbackHours).Outline
      (fun st l => Holds lookbackHours d l.2 ∧ undisturbed lib i d id st l = true)
      (SourceReady lib i) fun s c => LookbackKnows lib i lookbackHours d id s c.point c.log where
  keeps := by
    intro st j a c db' c' hC hc hready hknows hsteps
    have hguard := hC.2
    rw [undisturbed, hc, Option.all_some] at hguard
    cases hsteps with
    | read hstatement =>
      exact ⟨hready, hknows.step hints hhours hid hready hC.1 hguard (move_of_statement hstatement)⟩
    | write hstatement _ =>
      exact ⟨hready, hknows.step hints hhours hid hready hC.1 hguard (move_of_statement hstatement)⟩
    | commit hstatement =>
      obtain ⟨heffect, hknows'⟩ :=
        hknows.step hints hhours hid hready hC.1 hguard (move_of_statement hstatement)
      exact ⟨heffect.sourceReady hready, hknows'⟩
    | abort hstatement =>
      exact ⟨hready, hknows.step hints hhours hid hready hC.1 hguard (move_of_statement hstatement)⟩
  interfere := by
    intro st j a c e q hC hc hready hknows hstatement he hrows
    have hguard := hC.2
    rw [undisturbed, hc, Option.all_some] at hguard
    have hstep := hknows.step hints hhours hid hready hC.1 hguard (move_of_statement hstatement)
    exact he.interfere hstep.1 hready hrows

/--
A committed reset is not lost in any interleaving in which no pull goes past the document, a run
saves its cursor over the row it has read, and a reset that leaves the cursor as it is has read the
row it leaves. A document that every pull finds, inside the new lookback window, is stored or will
be in the window of the next search.
-/
theorem lookback_reset_kept (hints : ReadsEqualInts lib.pydantic)
    (hhours : 1 ≤ lookbackHours ∧ lookbackHours ≤ 168)
    (hid : docId lib.rt (normalizeHit d) = some id) {maxBatches : ℕ} {db : IngestDb}
    (hsource : db.dataSources[i]? = some source) (hresettable : Resettable lib source)
    (hs : (lookbackSystem lib i lookbackHours maxBatches db).ReachableBy
      (fun st l => Holds lookbackHours d l.2 ∧ undisturbed lib i d id st l = true) st)
    (hextended : st.connections.any (·.point.isExtended) = true) :
    Ingest.StoredAs i id st.db.db.alerts ∨ ∃ source, st.db.db.dataSources[i]? = some source ∧
      YetToCome lib lookbackHours source d := by
  have hinit : ∀ c ∈ (lookbackInit maxBatches db).connections,
      LookbackKnows lib i lookbackHours d id { db := db } c.point c.log := by
    simp only [lookbackInit, List.mem_cons, List.not_mem_nil, or_false, forall_eq_or_imp, forall_eq]
    exact ⟨.running maxBatches, .extending⟩
  have hidle : ∀ c ∈ (lookbackInit maxBatches db).connections, c.log = [] := by
    simp [lookbackInit]
  obtain ⟨-, hknows, -⟩ := (lookbackOutline hints hhours hid).invariant
    ⟨source, hsource, hresettable⟩ hinit hidle hs
  obtain ⟨c, hc, hpoint⟩ := List.any_eq_true.mp hextended
  have hkept := hknows c hc
  generalize c.point = point at hpoint hkept
  generalize c.log = log at hkept
  cases hkept with
  | extended hkept => exact hkept
  | _ => cases hpoint

end

end

/-- Integers as pydantic reads them from any number that equals one. -/
def lookbackLib : IngestLib :=
  { sampleLib with pydantic := { samplePydantic with
      readInt := fun value => value.number?.bind fun q => if q.den = 1 then some q.num else none
      readInt_int := fun _ => rfl } }

theorem lookbackLib_readsEqualInts : ReadsEqualInts lookbackLib.pydantic := by
  intro value n h
  have hnumber : value.number? = some (n : ℚ) := by
    cases value <;> simp [Json.same, Json.number?] at h ⊢
    all_goals exact h.symm
  change value.number?.bind _ = _
  rw [hnumber]
  rfl

/-- A document of three days ago and one of today. -/
def oldDoc : Doc := sampleDoc "a0" (-259200) "2025-12-29T00:00:00Z"

def newDoc : Doc := sampleDoc "a1" 0 "2026-01-01T00:00:00Z"

def lookbackPull : WazuhBatch where
  index := [oldDoc, newDoc]
  clock := sampleClock
  mapClock := sampleMapClock
  now := 1767268800000000

theorem lookbackPull_holds : Holds 168 oldDoc (.pulled lookbackPull) :=
  ⟨List.mem_cons_self, by unfold Inside; decide +kernel⟩

def lookbackSample :
    System (Shared LookbackStore LookbackWrite LookbackPoint) (ℕ × LookbackAnswer) :=
  lookbackSystem lookbackLib 0 168 10 { dataSources := [sampleSource] }

def lookbackLabels (before after : List ℕ) : List (ℕ × LookbackAnswer) :=
  before.map (·, .ok) ++ (0, .pulled lookbackPull) :: after.map (·, .ok)

theorem lookbackLabels_hold (before after : List ℕ) :
    ∀ l ∈ lookbackLabels before after, Holds 168 oldDoc l.2 := by
  intro l hl
  rcases List.mem_append.mp hl with hl | hl
  · obtain ⟨j, -, rfl⟩ := List.mem_map.mp hl
    trivial
  · rcases List.mem_cons.mp hl with rfl | hl
    · exact lookbackPull_holds
    · obtain ⟨j, -, rfl⟩ := List.mem_map.mp hl
      trivial

/-- The reset is committed between the pull of the run and the save of its cursor. -/
def lostLabels : List (ℕ × LookbackAnswer) := lookbackLabels [0] [1, 1, 1, 0, 0, 0, 0]

def lostReset : Shared LookbackStore LookbackWrite LookbackPoint :=
  (lookbackSample.run lostLabels lookbackSample.init).getD lookbackSample.init

/-- The cursor of the run replaces the reset; the old document is neither stored nor searched. -/
theorem reset_is_lost :
    ∃ st, lookbackSample.ReachableBy (fun _ l => Holds 168 oldDoc l.2) st ∧
      st.connections.all (·.point.finished) = true ∧
      st.connections.any (·.point.isExtended) = true ∧
      ¬ (Ingest.StoredAs 0 "a0" st.db.db.alerts ∨ ∃ source, st.db.db.dataSources[0]? = some source ∧
        YetToCome lookbackLib 168 source oldDoc) := by
  have hrun : lookbackSample.run lostLabels lookbackSample.init = some lostReset :=
    System.run_getD (by decide +kernel)
  refine ⟨lostReset,
    System.reachableBy_of_run (System.runsBy_of_labels (lookbackLabels_hold _ _)) hrun,
    by decide +kernel, by decide +kernel, ?_⟩
  rintro (hstored | ⟨source, hsource, parsed, cursor, k, -, hload, -, hshows⟩)
  · have hnone : lostReset.db.db.alerts.all (fun a => a.sourceAlertId != "a0") = true := by
      decide +kernel
    obtain ⟨a, ha, -, hid⟩ := hstored
    simpa [hid] using List.all_eq_true.mp hnone a ha
  · have hpast : (lostReset.db.db.dataSources[0]?.bind fun source =>
        CursorState.load lookbackLib.pydantic source.cursorState).map (·.lastOccurredAt) =
          some (some 1767225600000000) := by decide +kernel
    rw [hsource, Option.bind_some, hload, Option.map_some, Option.some.injEq] at hpast
    have hshown := hshows sampleClock (by unfold Inside; decide +kernel)
    simp only [Paging.Window.shows, windowOf, windowStart, hpast, Bool.and_eq_true,
      decide_eq_true_eq] at hshown
    exact absurd hshown.1 (by decide +kernel)

/-- The reset is committed after the batch, and before the run reads its source again. -/
def keptLabels : List (ℕ × LookbackAnswer) := lookbackLabels [0] [1, 0, 0, 0, 1, 1, 0]

def keptReset : Shared LookbackStore LookbackWrite LookbackPoint :=
  (lookbackSample.runIf (undisturbed lookbackLib 0 oldDoc "a0") keptLabels
    lookbackSample.init).getD lookbackSample.init

theorem sampleSource_resettable : Resettable lookbackLib sampleSource where
  config := by decide +kernel
  total := ⟨0, rfl⟩

theorem lookback_reset_kept_after_batch :
    keptReset.connections.all (·.point.finished) = true ∧
    (keptReset.db.db.alerts.map (·.sourceAlertId)) = ["a1"] ∧
    (Ingest.StoredAs 0 "a0" keptReset.db.db.alerts ∨
      ∃ source, keptReset.db.db.dataSources[0]? = some source ∧
        YetToCome lookbackLib 168 source oldDoc) := by
  have hrun : lookbackSample.runIf (undisturbed lookbackLib 0 oldDoc "a0") keptLabels
      lookbackSample.init = some keptReset := System.runIf_getD (by decide +kernel)
  obtain ⟨hguard, hrun⟩ := System.run_of_runIf hrun
  have hreach : lookbackSample.ReachableBy (fun st l => Holds 168 oldDoc l.2 ∧
      undisturbed lookbackLib 0 oldDoc "a0" st l = true) keptReset :=
    System.reachableBy_of_run ((System.runsBy_of_labels (lookbackLabels_hold _ _)).and hguard) hrun
  refine ⟨by decide +kernel, by decide +kernel, ?_⟩
  exact lookback_reset_kept lookbackLib_readsEqualInts (by decide) (by decide +kernel) rfl
    sampleSource_resettable hreach (by decide +kernel)

end Minsight

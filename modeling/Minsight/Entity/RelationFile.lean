import Minsight.Entity.NaiveUtc
import Minsight.Foundation.JsonText
import Minsight.Foundation.Lines
import Minsight.Foundation.Overlay
import Minsight.Foundation.Tx

/-! # Files of entity relations

The relations of a file are upserted into one transaction, line by line, and an error of a line is
reported instead of raised. A row is flushed by the lookup for the next line, so an error of the
database is reported there; the flush of the last row is the commit, and its error is raised.
-/

namespace Minsight

open Overlay

abbrev RelationKey := EntityType × String × EntityType × String × String

def EntityRelation.key (rel : EntityRelation) : RelationKey :=
  (rel.fromEntityType, rel.fromEntityKey, rel.toEntityType, rel.toEntityKey, rel.relationType)

def RelationRecord.key (record : RelationRecord) : RelationKey :=
  (record.fromEntityType, record.fromEntityKey, record.toEntityType, record.toEntityKey,
    record.relationType)

/-- The row that a record is written as. -/
def RelationRecord.row (driver : Datetime → Except Exn Time) (record : RelationRecord) :
    Except Exn EntityRelation := do
  let validFrom ← storeTime driver record.validFrom
  let validUntil ← storeTime driver record.validUntil
  pure {
    fromEntityType := record.fromEntityType
    fromEntityKey := record.fromEntityKey
    toEntityType := record.toEntityType
    toEntityKey := record.toEntityKey
    relationType := record.relationType
    confidence := record.confidence
    source := record.source
    metadata := record.metadata
    validFrom
    validUntil }

structure RelationImportEnv where
  lib : RelationLib
  /-- `json.loads` -/
  loads : List Char → Except Exn Json
  /-- How a time is written. -/
  driver : Datetime → Except Exn Time
  /-- What the columns refuse at the flush, besides times. -/
  refuses : RelationRecord → Option Exn
  /-- The lookup of the edge of a record fails. -/
  lookupFails : RelationRecord → Option Exn
  /-- `str(exc)` -/
  message : Exn → String

structure ImportSession where
  /-- What is committed. -/
  table : Rows EntityRelation
  /-- What the open transaction sees. -/
  rows : Rows EntityRelation
  /-- The row that was added or changed, and is not flushed. -/
  pending : Option RelationRecord := none
  /-- What statements raise until the rollback. -/
  failed : Option Exn := none

def ImportSession.start (table : Rows EntityRelation) : ImportSession where
  table := table
  rows := table

structure RelationImportResult where
  linesRead : ℕ := 0
  relationsUpserted : ℕ := 0
  updatedExisting : ℕ := 0
  errors : List String := []

section

variable (env : RelationImportEnv)

def RelationImportEnv.flushed (record : RelationRecord) (rows : Rows EntityRelation) :
    Except Exn (Rows EntityRelation) :=
  match env.refuses record with
  | some e => .error e
  | none => (upsertEntityRelation env.driver record rows).map Prod.snd

def flush : Tx Exn ImportSession Unit := ExceptT.mk fun s =>
  match s.pending with
  | none => (.ok (), s)
  | some record =>
    match env.flushed record s.rows with
    | .ok rows => (.ok (), { s with rows, pending := none })
    | .error e => (.error e, { s with failed := some .pendingRollback })

/-- `session.execute` of the lookup, which flushes first. -/
def lookupRelation (record : RelationRecord) : Tx Exn ImportSession (List EntityRelation) := do
  Tx.fallible (← Tx.read (·.failed))
  flush env
  match env.lookupFails record with
  | some e =>
    Tx.write fun s => { s with failed := some .statement }
    Tx.raise e
  | none => Tx.read fun s => (s.rows.select fun _ rel => record.names rel).map Prod.snd

/-- `upsert_entity_relation` in the session of an import: the row is left to the next flush. -/
def upsertRelation (record : RelationRecord) : Tx Exn ImportSession Bool := do
  match ← lookupRelation env record with
  | [] =>
    Tx.write fun s => { s with pending := some record }
    pure true
  | [_] =>
    Tx.write fun s => { s with pending := some record }
    pure false
  | _ => Tx.raise .multipleResults

def commitImport : Tx Exn ImportSession Unit := do
  Tx.fallible (← Tx.read (·.failed))
  flush env
  Tx.write fun s => { s with table := s.rows }

def rollbackImport : Tx Exn ImportSession Unit := Tx.write fun s => .start s.table

/-- The record of a line. -/
def recordOfLine (line : List Char × ℕ) : Except Exn RelationRecord := do
  let data ← env.loads line.1
  if !data.isObj then .error (.valueError "each line must be a JSON object")
  parseRelationRecord env.lib data line.2

/-- The `try` block of a line; true when no row is changed. -/
def importRecord (dryRun : Bool) (line : List Char × ℕ) : Tx Exn ImportSession Bool :=
  match recordOfLine env line with
  | .error e => Tx.raise e
  | .ok record => if dryRun then pure true else upsertRelation env record

def importLine (dryRun : Bool) (result : RelationImportResult) (line : List Char × ℕ) :
    Tx Exn ImportSession RelationImportResult := do
  let result := { result with linesRead := result.linesRead + 1 }
  match ← Tx.attempt (importRecord env dryRun line) with
  | .ok created => pure { result with
      relationsUpserted := result.relationsUpserted + 1
      updatedExisting := result.updatedExisting + if created then 0 else 1 }
  | .error e => pure { result with errors := result.errors ++ [env.message e] }

/-- The lines with their numbers, stripped, without the blank ones and the comments. -/
def numberedLines (cs : List Char) : List (List Char × ℕ) :=
  (((splitlines cs).zipIdx 1).map fun line => (stripChars line.1, line.2)).filter
    fun line => !(line.1.isEmpty || line.1.head? == some '#')

def contentLines (text : String) : List (List Char × ℕ) := numberedLines text.toList

def finishImport (dryRun : Bool) (result : RelationImportResult) : Tx Exn ImportSession Unit :=
  if !dryRun && result.relationsUpserted ≠ 0 && result.errors.isEmpty then commitImport env
  else if !dryRun && !result.errors.isEmpty then rollbackImport
  else pure ()

/-- `import_relations_jsonl`; a path that is no file has no bytes. -/
def importRelationsJsonl (path : String) (file : Option Bytes) (dryRun : Bool) :
    Tx Exn ImportSession RelationImportResult :=
  match file with
  | none => pure { errors := ["file not found: " ++ path] }
  | some data =>
    match decodeUtf8 data with
    | none => Tx.raise (.valueError "UnicodeDecodeError")
    | some text => do
      let result ← (contentLines text).foldlM (importLine env dryRun) {}
      finishImport env dryRun result
      pure result

/-- What an import does to a table: its result, or an exception, and the table after it. -/
def importInto (path : String) (text : String) (dryRun : Bool) (table : Rows EntityRelation) :
    Except Exn RelationImportResult × Rows EntityRelation :=
  let ran := Tx.exec (importRelationsJsonl env path (some (utf8 text)) dryRun) (.start table)
  (ran.1, ran.2.table)

/-- Errors are reported and the table is as it was, or every line is a record and the table is
overlaid with the records, in the order of their lines. -/
def ImportedWhole (text : String) (table : Rows EntityRelation)
    (imported : Except Exn RelationImportResult × Rows EntityRelation) : Prop :=
  ∃ result, imported.1 = .ok result ∧
    ((result.errors ≠ [] ∧ imported.2 = table) ∨
      (result.errors = [] ∧ ∃ records rels,
        (contentLines text).mapM (recordOfLine env) = .ok records ∧
        records.mapM (RelationRecord.row env.driver) = .ok rels ∧
        Overlaid EntityRelation.key table rels imported.2))

/-- The import is all or nothing, changes nothing when it is repeated, and nothing as a dry run. -/
structure AllOrNothing (path text : String) (table : Rows EntityRelation) : Prop where
  whole : ImportedWhole env text table (importInto env path text false table)
  again : (importInto env path text false (importInto env path text false table).2).2 =
    (importInto env path text false table).2
  dry : (importInto env path text true table).2 = table

/-- The database takes the row of a record. -/
def RelationImportEnv.Storable (record : RelationRecord) : Prop :=
  env.refuses record = none ∧ ∃ rel, record.row env.driver = .ok rel

end

section

variable {env : RelationImportEnv} {driver : Datetime → Except Exn Time}
  {record : RelationRecord} {records : List RelationRecord} {rel : EntityRelation}
  {rels rows table : Rows EntityRelation} {line : List Char × ℕ}
  {lines : List (List Char × ℕ)} {e : Exn}

theorem RelationRecord.names_iff : record.names rel = true ↔ rel.key = record.key := by
  simp only [RelationRecord.names, Bool.and_eq_true, beq_iff_eq, EntityRelation.key,
    RelationRecord.key, Prod.mk.injEq]
  tauto

theorem select_names (hunique : (rows.map EntityRelation.key).Nodup) :
    ((rows.select fun _ rel => record.names rel) = [] ∧ record.key ∉ rows.map EntityRelation.key) ∨
      ∃ i rel, (rows.select fun _ rel => record.names rel) = [(i, rel)] ∧ rows[i]? = some rel ∧
        rel.key = record.key := by
  have hselected : ∀ r ∈ rows.select fun _ rel => record.names rel,
      rows[r.1]? = some r.2 ∧ r.2.key = record.key := by
    rintro ⟨i, rel⟩ hr
    obtain ⟨hrel, hnames⟩ := Rows.mem_select.mp hr
    exact ⟨hrel, RelationRecord.names_iff.mp hnames⟩
  have hkeys := Rows.select_keys_nodup (fun _ rel => record.names rel) rows
  rcases hrows : rows.select fun _ rel => record.names rel with _ | ⟨⟨i, rel⟩, _ | ⟨⟨j, rel'⟩, _⟩⟩
  · refine .inl ⟨rfl, fun hmem => ?_⟩
    obtain ⟨rel, hrel, hkey⟩ := List.mem_map.mp hmem
    obtain ⟨i, hi⟩ := List.getElem?_of_mem hrel
    have hin : (i, rel) ∈ rows.select fun _ rel => record.names rel :=
      Rows.mem_select.mpr ⟨hi, RelationRecord.names_iff.mpr hkey⟩
    rw [hrows] at hin
    cases hin
  · obtain ⟨hrel, hkey⟩ := hselected (i, rel) (hrows ▸ List.mem_cons_self)
    exact .inr ⟨i, rel, rfl, hrel, hkey⟩
  · -- two edges of one name would be one row
    obtain ⟨hrel, hkey⟩ := hselected (i, rel) (hrows ▸ List.mem_cons_self)
    obtain ⟨hrel', hkey'⟩ :=
      hselected (j, rel') (hrows ▸ List.mem_cons_of_mem _ List.mem_cons_self)
    have hi : (rows.map EntityRelation.key)[i]? = some record.key := by
      rw [List.getElem?_map, hrel, Option.map_some, hkey]
    have hj : (rows.map EntityRelation.key)[j]? = some record.key := by
      rw [List.getElem?_map, hrel', Option.map_some, hkey']
    have hlt : i < (rows.map EntityRelation.key).length := Rows.lt_of_getElem? hi
    have hij : i = j := (List.getElem?_inj hlt hunique).mp (hi.trans hj.symm)
    rw [hrows] at hkeys
    simp [hij] at hkeys

theorem upsertEntityRelation_put (hunique : (rows.map EntityRelation.key).Nodup) :
    (upsertEntityRelation driver record rows).map Prod.snd =
      (record.row driver).map fun rel => put EntityRelation.key rel rows := by
  rw [upsertEntityRelation, RelationRecord.row]
  obtain ⟨hnone, hnew⟩ | ⟨i, rel, hone, hrel, hkey⟩ := @select_names record rows hunique
  · rw [hnone]
    cases storeTime driver record.validFrom with
    | error e => rfl
    | ok validFrom =>
      cases storeTime driver record.validUntil with
      | error e => rfl
      | ok validUntil => exact congrArg Except.ok (put_of_notMem hnew).symm
  · have hput (b : EntityRelation) (hb : b.key = record.key) :
        put EntityRelation.key b rows = rows.modify i fun _ => b :=
      put_of_getElem? hunique hrel (hkey.trans hb.symm)
    rw [hone]
    cases storeTime driver record.validFrom with
    | error e => rfl
    | ok validFrom =>
      cases storeTime driver record.validUntil with
      | error e => rfl
      | ok validUntil =>
        refine congrArg Except.ok (Eq.symm ((hput _ rfl).trans ?_))
        refine Rows.update_congr fun rel' hrel' => ?_
        obtain rfl := Option.some.inj (hrel.symm.trans hrel')
        cases rel
        simp only [EntityRelation.key, RelationRecord.key, Prod.mk.injEq] at hkey
        obtain ⟨rfl, rfl, rfl, rfl, rfl⟩ := hkey
        rfl

theorem flushed_of_row (hunique : (rows.map EntityRelation.key).Nodup)
    (hrefuses : env.refuses record = none) (hrow : record.row env.driver = .ok rel) :
    env.flushed record rows = .ok (put EntityRelation.key rel rows) := by
  rw [RelationImportEnv.flushed, hrefuses]
  change (upsertEntityRelation env.driver record rows).map Prod.snd = _
  rw [upsertEntityRelation_put hunique, hrow]
  rfl

theorem flushed_of_not_storable (hunique : (rows.map EntityRelation.key).Nodup)
    (h : ¬env.Storable record) : ∃ e, env.flushed record rows = .error e := by
  rw [RelationImportEnv.flushed]
  cases hrefuses : env.refuses record with
  | some e => exact ⟨e, rfl⟩
  | none =>
    change ∃ e, (upsertEntityRelation env.driver record rows).map Prod.snd = _
    rw [upsertEntityRelation_put hunique]
    cases hrow : record.row env.driver with
    | error e => exact ⟨e, rfl⟩
    | ok rel => exact absurd ⟨hrefuses, rel, hrow⟩ h

/-- No error is met up to the last lookup: each line is a record whose edge can be looked up, and
the database takes every record but the last one. -/
structure AcceptedLines (env : RelationImportEnv) (lines : List (List Char × ℕ))
    (records : List RelationRecord) : Prop where
  parsed : lines.mapM (recordOfLine env) = .ok records
  found : ∀ r ∈ records, env.lookupFails r = none
  fits : ∀ r ∈ records.dropLast, env.Storable r

theorem AcceptedLines.nil : AcceptedLines env [] [] where
  parsed := rfl
  found _ h := absurd h List.not_mem_nil
  fits _ h := absurd h List.not_mem_nil

theorem accepted_concat : AcceptedLines env (lines ++ [line]) records ↔
    ∃ init record, AcceptedLines env lines init ∧ (∀ r ∈ init.getLast?, env.Storable r) ∧
      recordOfLine env line = .ok record ∧ env.lookupFails record = none ∧
      records = init ++ [record] := by
  constructor
  · rintro ⟨hparsed, hfound, hfits⟩
    obtain ⟨init, record, hinit, hrecord, rfl⟩ := Tx.mapM_concat_ok.mp hparsed
    rw [List.dropLast_concat] at hfits
    refine ⟨init, record, ⟨hinit, ?_, ?_⟩, ?_, hrecord, ?_, rfl⟩
    · exact fun r hr => hfound r (List.mem_append_left _ hr)
    · exact fun r hr => hfits r (List.dropLast_subset _ hr)
    · exact fun r hr => hfits r (List.mem_of_getLast? hr)
    · exact hfound record (List.mem_append_right _ List.mem_cons_self)
  · rintro ⟨init, record, ⟨hinit, hfound, hfits⟩, hlast, hrecord, hlookup, rfl⟩
    constructor
    · exact Tx.mapM_concat_ok.mpr ⟨init, record, hinit, hrecord, rfl⟩
    · intro r hr
      rcases List.mem_append.mp hr with hr | hr
      · exact hfound r hr
      · exact List.mem_singleton.mp hr ▸ hlookup
    · rw [List.dropLast_concat]
      intro r hr
      rcases List.eq_nil_or_concat init with rfl | ⟨front, last, rfl⟩
      · exact absurd hr List.not_mem_nil
      · rw [List.concat_eq_append] at *
        rw [List.dropLast_concat] at hfits
        rcases List.mem_append.mp hr with hr | hr
        · exact hfits r hr
        · rw [List.mem_singleton.mp hr]
          exact hlast last List.getLast?_concat

theorem AcceptedLines.eq {records' : List RelationRecord} (h : AcceptedLines env lines records)
    (h' : AcceptedLines env lines records') : records = records' :=
  Except.ok.inj (h.parsed.symm.trans h'.parsed)

structure Pends (env : RelationImportEnv) (table : Rows EntityRelation)
    (records : List RelationRecord) (s : ImportSession) : Prop where
  committed : s.table = table
  rows : ∃ rels, records.dropLast.mapM (RelationRecord.row env.driver) = .ok rels ∧
    s.rows = overlay EntityRelation.key table rels
  pending : s.pending = records.getLast?
  failed : s.failed = none

structure Flushed (env : RelationImportEnv) (table : Rows EntityRelation)
    (records : List RelationRecord) (s : ImportSession) : Prop where
  committed : s.table = table
  rows : ∃ rels, records.mapM (RelationRecord.row env.driver) = .ok rels ∧
    s.rows = overlay EntityRelation.key table rels
  pending : s.pending = none
  failed : s.failed = none

variable {s s' : ImportSession}

theorem flush_of_storable (hunique : (table.map EntityRelation.key).Nodup)
    (hs : Pends env table records s) (hlast : ∀ r ∈ records.getLast?, env.Storable r) :
    ∃ s', Tx.exec (flush env) s = (.ok (), s') ∧ Flushed env table records s' := by
  obtain ⟨rels, hrels, hrows⟩ := hs.rows
  rcases List.eq_nil_or_concat records with rfl | ⟨init, record, rfl⟩
  · refine ⟨s, ?_, hs.committed, ⟨rels, hrels, hrows⟩, hs.pending, hs.failed⟩
    have hpending : s.pending = none := hs.pending
    change (match s.pending with | none => _ | some record => _) = _
    rw [hpending]
  · rw [List.concat_eq_append] at *
    have hpending : s.pending = some record := hs.pending.trans List.getLast?_concat
    obtain ⟨hrefuses, rel, hrow⟩ := hlast record List.getLast?_concat
    rw [List.dropLast_concat] at hrels
    have hflushed : env.flushed record s.rows = .ok (put EntityRelation.key rel s.rows) :=
      flushed_of_row (hrows ▸ nodup_overlay hunique rels) hrefuses hrow
    refine ⟨{ s with rows := put EntityRelation.key rel s.rows, pending := none }, ?_, hs.committed,
      ⟨rels ++ [rel], Tx.mapM_concat_ok.mpr ⟨rels, rel, hrels, hrow, rfl⟩, ?_⟩, rfl, hs.failed⟩
    · change (match s.pending with | none => _ | some record => _) = _
      rw [hpending]
      simp only [hflushed]
    · change put EntityRelation.key rel s.rows = _
      rw [hrows, overlay_append]
      rfl

theorem flush_of_not_storable (hunique : (table.map EntityRelation.key).Nodup)
    (hs : Pends env table records s) (hlast : ∃ r ∈ records.getLast?, ¬env.Storable r) :
    ∃ e, Tx.exec (flush env) s = (.error e, { s with failed := some .pendingRollback }) := by
  obtain ⟨rels, -, hrows⟩ := hs.rows
  obtain ⟨record, hrecord, hnot⟩ := hlast
  have hpending : s.pending = some record := hs.pending.trans hrecord
  have hkeys : (s.rows.map EntityRelation.key).Nodup := hrows ▸ nodup_overlay hunique rels
  obtain ⟨e, he⟩ := flushed_of_not_storable hkeys hnot
  refine ⟨e, ?_⟩
  change (match s.pending with | none => _ | some record => _) = _
  rw [hpending]
  simp only [he]

theorem exec_lookupRelation (hfailed : s.failed = none) :
    Tx.exec (lookupRelation env record) s =
      match Tx.exec (flush env) s with
      | (.error e, s') => (.error e, s')
      | (.ok (), s') =>
        match env.lookupFails record with
        | some e => (.error e, { s' with failed := some .statement })
        | none => (.ok ((s'.rows.select fun _ rel => record.names rel).map Prod.snd), s') := by
  rw [lookupRelation, Tx.exec_bind_read, hfailed]
  change Tx.exec (flush env >>= _) s = _
  rw [Tx.exec_bind]
  rcases Tx.exec (flush env) s with ⟨e | ⟨⟩, s'⟩
  · rfl
  · cases env.lookupFails record <;> rfl

/-- A lookup that works leaves the record to the next flush, after those before it are written. -/
theorem upsertRelation_accepted (hunique : (table.map EntityRelation.key).Nodup)
    (hs : Pends env table records s) (hlast : ∀ r ∈ records.getLast?, env.Storable r)
    (hlookup : env.lookupFails record = none) :
    ∃ created s', Tx.exec (upsertRelation env record) s = (.ok created, s') ∧
      Pends env table (records ++ [record]) s' := by
  obtain ⟨s', hflush, hs'⟩ := flush_of_storable hunique hs hlast
  obtain ⟨rels, hrels, hrows⟩ := hs'.rows
  have hpends : Pends env table (records ++ [record]) { s' with pending := some record } := by
    refine ⟨hs'.committed, ⟨rels, ?_, hrows⟩, List.getLast?_concat.symm, hs'.failed⟩
    rw [List.dropLast_concat]
    exact hrels
  have hexec : Tx.exec (lookupRelation env record) s =
      (.ok ((s'.rows.select fun _ rel => record.names rel).map Prod.snd), s') := by
    rw [exec_lookupRelation hs.failed, hflush]
    simp only [hlookup]
  have hrowKeys : (s'.rows.map EntityRelation.key).Nodup := hrows ▸ nodup_overlay hunique rels
  rw [upsertRelation, Tx.exec_bind_of_ok hexec]
  obtain ⟨hnone, -⟩ | ⟨i, rel, hone, -, -⟩ := @select_names record s'.rows hrowKeys
  · rw [hnone]
    exact ⟨true, _, rfl, hpends⟩
  · rw [hone]
    exact ⟨false, _, rfl, hpends⟩

theorem upsertRelation_refused (hunique : (table.map EntityRelation.key).Nodup)
    (hs : Pends env table records s)
    (h : (∃ r ∈ records.getLast?, ¬env.Storable r) ∨ env.lookupFails record ≠ none) :
    ∃ e s', Tx.exec (upsertRelation env record) s = (.error e, s') := by
  rw [upsertRelation]
  by_cases hlast : ∃ r ∈ records.getLast?, ¬env.Storable r
  · obtain ⟨e, hflush⟩ := flush_of_not_storable hunique hs hlast
    have hexec : Tx.exec (lookupRelation env record) s =
        (.error e, { s with failed := some .pendingRollback }) := by
      rw [exec_lookupRelation hs.failed, hflush]
    exact ⟨e, _, Tx.exec_bind_of_error hexec⟩
  · obtain ⟨e, he⟩ := Option.ne_none_iff_exists'.mp (h.resolve_left hlast)
    push Not at hlast
    obtain ⟨s', hflush, -⟩ := flush_of_storable hunique hs hlast
    have hexec : Tx.exec (lookupRelation env record) s =
        (.error e, { s' with failed := some .statement }) := by
      rw [exec_lookupRelation hs.failed, hflush]
      simp only [he]
    exact ⟨e, _, Tx.exec_bind_of_error hexec⟩

def SameTable (s s' : ImportSession) : Prop := s'.table = s.table

instance : Std.Refl SameTable := ⟨fun _ => rfl⟩

instance : IsTrans ImportSession SameTable := ⟨fun _ _ _ h h' => Eq.trans h' h⟩

theorem flush_sameTable : Tx.Respects SameTable (flush env) := by
  intro s
  change (match s.pending with | none => _ | some record => _ :
    Except Exn Unit × ImportSession).2.table = s.table
  split
  · rfl
  · split <;> rfl

theorem write_sameTable {f : ImportSession → ImportSession} (h : ∀ s, (f s).table = s.table) :
    Tx.Respects SameTable (Tx.write f : Tx Exn ImportSession Unit) := Tx.respects_write h

theorem lookupRelation_sameTable : Tx.Respects SameTable (lookupRelation env record) := by
  refine (Tx.respects_read _).bind fun failed => (Tx.respects_fallible failed).bind fun _ =>
    flush_sameTable.bind fun _ => ?_
  split
  · refine (write_sameTable ?_).bind fun _ => Tx.respects_raise _
    exact fun s => rfl
  · exact Tx.respects_read _

theorem upsertRelation_sameTable : Tx.Respects SameTable (upsertRelation env record) := by
  refine lookupRelation_sameTable.bind fun found => ?_
  split
  · refine (write_sameTable ?_).bind fun _ => Tx.respects_pure _
    exact fun s => rfl
  · refine (write_sameTable ?_).bind fun _ => Tx.respects_pure _
    exact fun s => rfl
  · exact Tx.respects_raise _

theorem importRecord_sameTable : Tx.Respects SameTable (importRecord env false line) := by
  unfold importRecord
  split
  · exact Tx.respects_raise _
  · exact upsertRelation_sameTable

/-- The result after a line. -/
def RelationImportResult.after (env : RelationImportEnv) (result : RelationImportResult)
    (outcome : Except Exn Bool) : RelationImportResult :=
  match outcome with
  | .ok created => { result with
      linesRead := result.linesRead + 1
      relationsUpserted := result.relationsUpserted + 1
      updatedExisting := result.updatedExisting + if created then 0 else 1 }
  | .error e => { result with
      linesRead := result.linesRead + 1
      errors := result.errors ++ [env.message e] }

theorem exec_importLine {dryRun : Bool} (result : RelationImportResult) (s : ImportSession) :
    Tx.exec (importLine env dryRun result line) s =
      (.ok (result.after env (Tx.exec (importRecord env dryRun line) s).1),
        (Tx.exec (importRecord env dryRun line) s).2) := by
  rw [importLine, Tx.exec_bind_attempt]
  cases (Tx.exec (importRecord env dryRun line) s).1 <;> rfl

/-- After some lines, either no error was met and the last record is pending, or an error is
reported. Nothing is committed. -/
def RunsTo (env : RelationImportEnv) (table : Rows EntityRelation) (lines : List (List Char × ℕ))
    (result : RelationImportResult) (s : ImportSession) : Prop :=
  (result.errors = [] ∧ ∃ records, AcceptedLines env lines records ∧ Pends env table records s ∧
    result.relationsUpserted = records.length) ∨
  (result.errors ≠ [] ∧ s.table = table ∧ ∀ records, ¬AcceptedLines env lines records)

/-- One more line is accepted where it is a record that can be looked up and the record before it
fits. Otherwise an error is met. -/
theorem importRecord_accepted (hunique : (table.map EntityRelation.key).Nodup)
    (haccepted : AcceptedLines env lines records) (hs : Pends env table records s) :
    (∃ created s' record, Tx.exec (importRecord env false line) s = (.ok created, s') ∧
      AcceptedLines env (lines ++ [line]) (records ++ [record]) ∧
      Pends env table (records ++ [record]) s') ∨
    (∃ e s', Tx.exec (importRecord env false line) s = (.error e, s')) ∧
      ∀ records', ¬AcceptedLines env (lines ++ [line]) records' := by
  by_cases hnext : ∃ record, recordOfLine env line = .ok record ∧
      (∀ r ∈ records.getLast?, env.Storable r) ∧ env.lookupFails record = none
  · obtain ⟨record, hrecord, hlast, hlookup⟩ := hnext
    obtain ⟨created, s', hexec, hpends⟩ := upsertRelation_accepted hunique hs hlast hlookup
    refine .inl ⟨created, s', record, ?_, ?_, hpends⟩
    · rw [importRecord, hrecord]
      exact hexec
    · exact accepted_concat.mpr ⟨records, record, haccepted, hlast, hrecord, hlookup, rfl⟩
  · refine .inr ⟨?_, fun records' haccepted' => ?_⟩
    · rw [importRecord]
      cases hrecord : recordOfLine env line with
      | error e => exact ⟨e, s, rfl⟩
      | ok record =>
        refine upsertRelation_refused hunique hs ?_
        by_contra hcon
        push Not at hcon
        exact hnext ⟨record, hrecord, hcon.1, hcon.2⟩
    · obtain ⟨init, record, hinit, hlast, hrecord, hlookup, -⟩ := accepted_concat.mp haccepted'
      obtain rfl := haccepted.eq hinit
      exact hnext ⟨record, hrecord, hlast, hlookup⟩

theorem RelationImportResult.after_errors {result : RelationImportResult}
    (outcome : Except Exn Bool) (h : result.errors ≠ []) :
    (result.after env outcome).errors ≠ [] := by
  cases outcome with
  | ok created => exact h
  | error e => exact List.append_ne_nil_of_left_ne_nil h _

theorem importLine_runsTo {result : RelationImportResult}
    (hunique : (table.map EntityRelation.key).Nodup) (h : RunsTo env table lines result s) :
    ∃ result' s', Tx.exec (importLine env false result line) s = (.ok result', s') ∧
      RunsTo env table (lines ++ [line]) result' s' := by
  refine ⟨_, _, exec_importLine result s, ?_⟩
  have hsame : (Tx.exec (importRecord env false line) s).2.table = s.table :=
    importRecord_sameTable s
  obtain ⟨herrors, records, haccepted, hpends, hcount⟩ | ⟨herrors, htable, hnot⟩ := h
  · obtain ⟨created, s', record, hrun, haccepted', hpends'⟩ | ⟨⟨e, s', hrun⟩, hnot⟩ :=
      @importRecord_accepted _ _ _ line _ _ hunique haccepted hpends
    · rw [hrun]
      refine .inl ⟨herrors, records ++ [record], haccepted', hpends', ?_⟩
      rw [List.length_append, List.length_singleton, ← hcount]
      rfl
    · rw [hrun] at hsame ⊢
      refine .inr ⟨?_, hsame.trans hpends.committed, hnot⟩
      exact List.append_ne_nil_of_right_ne_nil _ (List.cons_ne_nil _ _)
  · refine .inr ⟨result.after_errors _ herrors, hsame.trans htable, ?_⟩
    intro records haccepted
    obtain ⟨init, -, hinit, -⟩ := accepted_concat.mp haccepted
    exact hnot init hinit

theorem importLines_runsTo (hunique : (table.map EntityRelation.key).Nodup)
    (lines : List (List Char × ℕ)) :
    ∃ result s, Tx.exec (lines.foldlM (importLine env false) {}) (.start table) = (.ok result, s) ∧
      RunsTo env table lines result s := by
  induction lines using List.reverseRecOn with
  | nil =>
    refine ⟨{}, _, rfl, .inl ⟨rfl, [], .nil, ?_, rfl⟩⟩
    exact ⟨rfl, ⟨[], rfl, rfl⟩, rfl, rfl⟩
  | append_singleton lines line ih =>
    obtain ⟨result, s, hexec, hruns⟩ := ih
    obtain ⟨result', s', hexec', hruns'⟩ := @importLine_runsTo _ _ line _ _ _ hunique hruns
    refine ⟨result', s', ?_, hruns'⟩
    rw [List.foldlM_append, Tx.exec_bind_of_ok hexec, List.foldlM_cons, Tx.exec_bind_of_ok hexec']
    rfl

variable {path text : String}

theorem importInto_of_lines {dryRun : Bool} {result : RelationImportResult}
    (hexec : Tx.exec ((contentLines text).foldlM (importLine env dryRun) {}) (.start table) =
      (.ok result, s)) :
    importInto env path text dryRun table =
      ((Tx.exec (finishImport env dryRun result) s).1.map fun _ => result,
        (Tx.exec (finishImport env dryRun result) s).2.table) := by
  have himport : Tx.exec (importRelationsJsonl env path (some (utf8 text)) dryRun) (.start table) =
      Tx.exec (finishImport env dryRun result >>= fun _ => pure result) s := by
    rw [importRelationsJsonl]
    simp only [decodeUtf8_utf8]
    exact Tx.exec_bind_of_ok hexec
  rw [importInto, himport, Tx.exec_bind]
  rcases Tx.exec (finishImport env dryRun result) s with ⟨_ | _, _⟩ <;> rfl

theorem exec_commitImport (hfailed : s.failed = none) : Tx.exec (commitImport env) s =
    match Tx.exec (flush env) s with
    | (.ok (), s') => (.ok (), { s' with table := s'.rows })
    | (.error e, s') => (.error e, s') := by
  rw [commitImport, Tx.exec_bind_read, hfailed]
  change Tx.exec (flush env >>= _) s = _
  rw [Tx.exec_bind]
  rcases Tx.exec (flush env) s with ⟨e | ⟨⟩, s'⟩ <;> rfl

theorem finishImport_commit {result : RelationImportResult} (herrors : result.errors = [])
    (hcount : result.relationsUpserted ≠ 0) : finishImport env false result = commitImport env := by
  rw [finishImport, herrors, if_pos]
  simpa using hcount

theorem finishImport_idle {result : RelationImportResult} (herrors : result.errors = [])
    (hcount : result.relationsUpserted = 0) : finishImport env false result = pure () := by
  rw [finishImport, herrors, hcount]
  rfl

theorem finishImport_rollback {result : RelationImportResult} (herrors : result.errors ≠ []) :
    finishImport env false result = rollbackImport := by
  have hne : result.errors.isEmpty = false := by simpa using herrors
  rw [finishImport, hne, if_neg (by simp), if_pos (by rfl)]

theorem importInto_of_not_accepted (hunique : (table.map EntityRelation.key).Nodup)
    (h : ∀ records, ¬AcceptedLines env (contentLines text) records) :
    ∃ result, importInto env path text false table = (.ok result, table) ∧ result.errors ≠ [] := by
  obtain ⟨result, s, hexec, hruns⟩ := @importLines_runsTo env table hunique (contentLines text)
  obtain ⟨-, records, haccepted, -⟩ | ⟨herrors, htable, -⟩ := hruns
  · exact absurd haccepted (h records)
  · refine ⟨result, ?_, herrors⟩
    rw [importInto_of_lines hexec, finishImport_rollback herrors]
    exact congrArg (Except.ok result, ·) htable

theorem importInto_of_accepted (hunique : (table.map EntityRelation.key).Nodup)
    (haccepted : AcceptedLines env (contentLines text) records) :
    ∃ result s, result.errors = [] ∧ Pends env table records s ∧
      importInto env path text false table =
        if records = [] then (.ok result, table)
        else ((Tx.exec (commitImport env) s).1.map fun _ => result,
          (Tx.exec (commitImport env) s).2.table) := by
  obtain ⟨result, s, hexec, hruns⟩ := @importLines_runsTo env table hunique (contentLines text)
  obtain ⟨herrors, records', haccepted', hpends, hcount⟩ | ⟨-, -, hnot⟩ := hruns
  · obtain rfl := haccepted.eq haccepted'
    refine ⟨result, s, herrors, hpends, ?_⟩
    rw [importInto_of_lines hexec]
    split
    · rename_i hnil
      rw [finishImport_idle herrors (hcount.trans (hnil ▸ rfl))]
      exact congrArg (Except.ok result, ·) hpends.committed
    · rename_i hne
      have hpos : result.relationsUpserted ≠ 0 := fun h =>
        hne (List.length_eq_zero_iff.mp (hcount.symm.trans h))
      rw [finishImport_commit herrors hpos]
  · exact absurd haccepted (hnot records)

/-- An import of accepted lines whose last record can be stored overlays the table. -/
theorem importInto_of_storable (hunique : (table.map EntityRelation.key).Nodup)
    (haccepted : AcceptedLines env (contentLines text) records)
    (hlast : ∀ r ∈ records.getLast?, env.Storable r) :
    ∃ result rels, importInto env path text false table =
        (.ok result, overlay EntityRelation.key table rels) ∧ result.errors = [] ∧
      records.mapM (RelationRecord.row env.driver) = .ok rels := by
  obtain ⟨result, s, herrors, hpends, himport⟩ :=
    @importInto_of_accepted env records table path text hunique haccepted
  obtain ⟨s', hflush, hs'⟩ := flush_of_storable hunique hpends hlast
  obtain ⟨rels, hrels, hrows⟩ := hs'.rows
  refine ⟨result, rels, ?_, herrors, hrels⟩
  rw [himport]
  split
  · rename_i hnil
    rw [hnil] at hrels
    obtain rfl := Except.ok.inj hrels
    rfl
  · rw [exec_commitImport hpends.failed, hflush]
    exact congrArg (Except.ok result, ·) hrows

/-- An import of accepted lines whose last record cannot be stored raises at the commit. -/
theorem importInto_of_not_storable (hunique : (table.map EntityRelation.key).Nodup)
    (haccepted : AcceptedLines env (contentLines text) records)
    (hlast : ∃ r ∈ records.getLast?, ¬env.Storable r) :
    ∃ e, importInto env path text false table = (.error e, table) := by
  obtain ⟨result, s, -, hpends, himport⟩ :=
    @importInto_of_accepted env records table path text hunique haccepted
  obtain ⟨e, hflush⟩ := flush_of_not_storable hunique hpends hlast
  refine ⟨e, ?_⟩
  have hne : records ≠ [] := by
    rintro rfl
    obtain ⟨r, hr, -⟩ := hlast
    cases hr
  rw [himport, if_neg hne, exec_commitImport hpends.failed, hflush]
  exact congrArg (Except.error e, ·) hpends.committed

theorem importInto_dry (table : Rows EntityRelation) :
    (importInto env path text true table).2 = table := by
  have hreturns (lines : List (List Char × ℕ)) (result : RelationImportResult)
      (s : ImportSession) :
      ∃ result', Tx.exec (lines.foldlM (importLine env true) result) s = (.ok result', s) := by
    induction lines generalizing result with
    | nil => exact ⟨result, rfl⟩
    | cons line lines ih =>
      have hs : (Tx.exec (importRecord env true line) s).2 = s := by
        unfold importRecord
        split <;> rfl
      rw [List.foldlM_cons, Tx.exec_bind_of_ok (exec_importLine result s), hs]
      exact ih _
  obtain ⟨result, hexec⟩ := hreturns (contentLines text) {} (.start table)
  rw [importInto_of_lines hexec]
  rfl

/-- The import keeps its word just when the last record of a file without other errors can be
stored. -/
theorem allOrNothing_iff (hunique : (table.map EntityRelation.key).Nodup) :
    AllOrNothing env path text table ↔
      ∀ records, (contentLines text).mapM (recordOfLine env) = .ok records →
        (∀ r ∈ records, env.lookupFails r = none) → (∀ r ∈ records.dropLast, env.Storable r) →
        ∀ r ∈ records.getLast?, env.Storable r := by
  constructor
  · intro h records hparsed hfound hfits
    by_contra hlast
    push Not at hlast
    obtain ⟨e, he⟩ := @importInto_of_not_storable env records table path text hunique
      ⟨hparsed, hfound, hfits⟩ hlast
    obtain ⟨result, hresult, -⟩ := h.whole
    rw [he] at hresult
    cases hresult
  · intro h
    by_cases haccepted : ∃ records, AcceptedLines env (contentLines text) records
    · obtain ⟨records, haccepted⟩ := haccepted
      have hlast := h records haccepted.parsed haccepted.found haccepted.fits
      obtain ⟨result, rels, himport, herrors, hrels⟩ :=
        @importInto_of_storable env records table path text hunique haccepted hlast
      obtain ⟨result', rels', hagain, -, hrels'⟩ :=
        @importInto_of_storable env records _ path text (nodup_overlay hunique rels) haccepted hlast
      obtain rfl := Except.ok.inj (hrels.symm.trans hrels')
      refine ⟨?_, ?_, importInto_dry table⟩
      · rw [himport]
        exact ⟨result, rfl, .inr ⟨herrors, records, rels, haccepted.parsed, hrels,
          overlaid_overlay hunique rels⟩⟩
      · rw [himport, hagain, overlay_overlay hunique]
    · obtain ⟨result, himport, herrors⟩ := @importInto_of_not_accepted env table path text hunique
        fun records h => haccepted ⟨records, h⟩
      refine ⟨?_, ?_, importInto_dry table⟩
      · rw [himport]
        exact ⟨result, rfl, .inl ⟨herrors, rfl⟩⟩
      · rw [himport, himport]

end

def sampleImportEnv : RelationImportEnv where
  lib := sampleRelationLib
  loads line := (JsonText.load JsonText.halfFloats line).elim
    (.error (.valueError "Expecting value")) .ok
  driver := naiveDriver
  refuses record :=
    if record.fromEntityKey.length ≤ 256 ∧ record.toEntityKey.length ≤ 256 ∧
      record.relationType.length ≤ 64 then none else some .statement
  lookupFails _ := none
  message
    | .valueError text => text
    | _ => "database error"

/-- A comment and, for each time, the same relation as one that is valid from then on. -/
def sampleChars (validFroms : List String) : List Char :=
  "# applications\n".toList ++ validFroms.flatMap fun validFrom =>
    JsonText.dump JsonText.halfFloats (sampleRelation validFrom) ++ ['\n']

def sampleFile (validFroms : List String) : String := String.ofList (sampleChars validFroms)

def sampleRelations : Rows EntityRelation :=
  [{ fromEntityType := .host, fromEntityKey := "web-1", toEntityType := .user,
      toEntityKey := "deploy", relationType := "used_by" },
    { fromEntityType := .ip, fromEntityKey := "10.0.0.1", toEntityType := .host,
      toEntityKey := "web-1", relationType := "has_host" }]

theorem sample_records {validFroms : List String} {lines : List (List Char × ℕ)}
    {p : List RelationRecord → Bool} (hlines : numberedLines (sampleChars validFroms) = lines)
    (h : (lines.mapM (recordOfLine sampleImportEnv)).toOption.any p = true) :
    ∃ records, (contentLines (sampleFile validFroms)).mapM (recordOfLine sampleImportEnv) =
      .ok records ∧ p records = true := by
  rw [contentLines, sampleFile, String.toList_ofList, hlines]
  cases hrecords : lines.mapM (recordOfLine sampleImportEnv) with
  | error e =>
    rw [hrecords] at h
    cases h
  | ok records =>
    rw [hrecords] at h
    exact ⟨records, rfl, h⟩

/-- The second record is about the relation of the first one, which is in the table already. -/
theorem allOrNothing_naive :
    let file := sampleFile ["2026-01-01T08:00:00", "2026-02-01T08:00:00"]
    AllOrNothing sampleImportEnv "relations.jsonl" file sampleRelations ∧
      ∃ records, (contentLines file).mapM (recordOfLine sampleImportEnv) = .ok records ∧
        records.length = 2 ∧ (records.map RelationRecord.key).dedup.length = 1 := by
  obtain ⟨records, hparsed, hrecords⟩ := @sample_records
    ["2026-01-01T08:00:00", "2026-02-01T08:00:00"]
    [(JsonText.dump JsonText.halfFloats (sampleRelation "2026-01-01T08:00:00"), 2),
      (JsonText.dump JsonText.halfFloats (sampleRelation "2026-02-01T08:00:00"), 3)]
    (fun records => (records.getLast?.all fun record =>
        (sampleImportEnv.refuses record).isNone && (record.row naiveDriver).isOk) &&
      decide (records.length = 2) && decide ((records.map RelationRecord.key).dedup.length = 1))
    (by decide +kernel) (by decide +kernel)
  simp only [Bool.and_eq_true, decide_eq_true_eq] at hrecords
  obtain ⟨⟨hstorable, hlength⟩, hkeys⟩ := hrecords
  refine ⟨(allOrNothing_iff (by decide)).mpr fun records' hparsed' _ _ r hr => ?_,
    records, hparsed, hlength, hkeys⟩
  obtain rfl := Except.ok.inj (hparsed.symm.trans hparsed')
  rw [Option.mem_def.mp hr] at hstorable
  obtain ⟨hrefuses, hrow⟩ := Bool.and_eq_true_iff.mp hstorable
  exact ⟨Option.isNone_iff_eq_none.mp hrefuses, Tx.ok_of_isOk hrow⟩

/-- The last record of a file is refused at the commit, and the import raises. -/
theorem not_allOrNothing_aware : ¬AllOrNothing sampleImportEnv "relations.jsonl"
    (sampleFile ["2026-01-01T08:00:00+08:00"]) sampleRelations := by
  intro h
  obtain ⟨records, hparsed, hrecords⟩ := @sample_records ["2026-01-01T08:00:00+08:00"]
    [(JsonText.dump JsonText.halfFloats (sampleRelation "2026-01-01T08:00:00+08:00"), 2)]
    (fun records => decide (records.length = 1) &&
      records.all fun record => !(record.row naiveDriver).isOk)
    (by decide +kernel) (by decide +kernel)
  obtain ⟨hlength, hnot⟩ := Bool.and_eq_true_iff.mp hrecords
  obtain ⟨record, rfl⟩ := List.length_eq_one_iff.mp (of_decide_eq_true hlength)
  have hrefused : ¬sampleImportEnv.Storable record := by
    rintro ⟨-, rel, hrel⟩
    have hrel : record.row naiveDriver = .ok rel := hrel
    rw [List.all_cons, hrel] at hnot
    cases hnot
  have haccepted : AcceptedLines sampleImportEnv
      (contentLines (sampleFile ["2026-01-01T08:00:00+08:00"])) [record] :=
    ⟨hparsed, fun _ _ => rfl, fun _ hmem => absurd hmem List.not_mem_nil⟩
  obtain ⟨e, he⟩ := @importInto_of_not_storable _ _ sampleRelations "relations.jsonl" _ (by decide)
    haccepted ⟨record, rfl, hrefused⟩
  obtain ⟨result, hresult, -⟩ := h.whole
  rw [he] at hresult
  cases hresult

end Minsight

import Minsight.Ingestion.Batch

/-! # What a batch needs in order to be stored

All rows of a batch go into the table by one statement and the cursor moves after it, so a batch
is stored exactly when every mapped row of it fits.
-/

namespace Minsight

open Tx

namespace Ingest

section

variable {lib : IngestLib} {i : ℕ} {source : DataSource} {cursor : CursorState} {env : BatchEnv}
  {s s' : IngestSession} {pull : PullResult} {rows : List Alert}

structure Undisturbed (env : BatchEnv) (rows : List Alert) : Prop where
  insert : rows ≠ [] → env.insertFault = none
  flush : env.flushFault = none
  audit : env.auditFault = none
  commit : env.commitFault = none
  refresh : env.refreshFault = none

def newRows (alerts : Rows Alert) (rows : List Alert) : ℕ :=
  (insertNew alerts rows).length - alerts.length

def stored (lib : IngestLib) (i : ℕ) (db : IngestDb) (pull : PullResult) (cursor : CursorState)
    (rows : List Alert) : IngestDb where
  dataSources := db.dataSources.modify i fun source => { source with
    cursorState := (nextCursor pull cursor (newRows db.alerts rows)).dump lib.pydantic }
  alerts := insertNew db.alerts rows

/-- A batch of rows is stored: all of them fit, the cursor can be stored, and no statement fails. -/
structure Storable (lib : IngestLib) (env : BatchEnv) (s : IngestSession) (pull : PullResult)
    (cursor : CursorState) (rows : List Alert) : Prop where
  undisturbed : Undisturbed env rows
  fits : ∀ row ∈ rows, row.fits lib.columns = true
  cursor : lib.columns.jsonb
    ((nextCursor pull cursor (newRows s.db.alerts rows)).dump lib.pydantic) = true

theorem exec_insert_bind_ok {β : Type} {k : ℕ → Ingest β} {b : β} {fault : Option Exn} :
    exec (insertBatch lib rows fault >>= k) s = (.ok b, s') ↔
      (rows ≠ [] → s.failed = false ∧ fault = none) ∧
        (∀ row ∈ rows, row.fits lib.columns = true) ∧
        exec (k (newRows s.db.alerts rows))
          { s with db := { s.db with alerts := insertNew s.db.alerts rows } } = (.ok b, s') := by
  cases rows with
  | nil =>
    have hnone : newRows s.db.alerts [] = 0 := Nat.sub_self _
    rw [hnone]
    simp [insertBatch, insertNew]
  | cons row rows =>
    simp only [insertBatch, List.isEmpty_cons, Bool.false_eq_true, if_false]
    by_cases hencodes : (row :: rows).all (Alert.encodes lib.columns) = true
    case neg =>
      have hunfit : ¬ ∀ row' ∈ row :: rows, row'.fits lib.columns = true := fun hfits =>
        hencodes (List.all_eq_true.mpr fun row' hrow' =>
          (Bool.and_eq_true_iff.mp (hfits row' hrow')).1)
      rw [if_neg hencodes, exec_bind_raise]
      constructor
      · intro h
        cases h
      · intro h
        exact absurd h.2.1 hunfit
    rw [if_pos hencodes]
    simp only [exec_statement_bind_ok, insertRows]
    constructor
    · rintro ⟨hfailed, a, db, hf, hk⟩
      split at hf
      · obtain ⟨hfault, rfl, rfl⟩ := answer_ok.mp hf
        exact ⟨fun _ => ⟨hfailed, hfault⟩, List.all_eq_true.mp ‹_›, hk⟩
      · cases hf
    · rintro ⟨hquiet, hfits, hk⟩
      obtain ⟨hfailed, hfault⟩ := hquiet (List.cons_ne_nil _ _)
      refine ⟨hfailed, _, _, ?_, hk⟩
      rw [if_pos (List.all_eq_true.mpr hfits)]
      exact answer_ok.mpr ⟨hfault, rfl, rfl⟩

theorem saveCursor_ok {state : Json} {fault : Option Exn} {db db' : IngestDb} {u : Unit} :
    saveCursor lib i state fault db = .ok (u, db') ↔
      lib.columns.jsonb state = true ∧ fault = none ∧
        { db with dataSources := db.dataSources.modify i fun source =>
            { source with cursorState := state } } = db' := by
  unfold saveCursor
  split
  · rename_i h
    simp [h]
  · rename_i h
    simp [h]

theorem exec_runBatch_ok {r : IngestBatchResult × DataSource} :
    exec (runBatch lib i source cursor env) s = (.ok r, s') ↔
      s.failed = false ∧ ∃ pull rows, env.pull source.config cursor = .ok pull ∧
        (mappedItems (mapItems env i source.name pull.items)).mapM
          (fun m => rowOf lib env i m.2) = .ok rows ∧
        Storable lib env s pull cursor rows ∧
        r = (batchResult (mapItems env i source.name pull.items) pull rows
            (newRows s.db.alerts rows),
          (stored lib i s.db pull cursor rows).dataSources[i]?.getD source) ∧
        s' = { s with
          db := stored lib i s.db pull cursor rows
          committed := stored lib i s.db pull cursor rows
          seen := s.seen ++
            (mappedItems (mapItems env i source.name pull.items)).map Prod.fst } := by
  simp only [runBatch, refresh, flush, exec_outcome_bind_ok, exec_insert_bind_ok,
    exec_attemptStatement_bind_ok, exec_commit_bind_ok, exec_bind_write, saveCursor_ok, answer_ok, exec_pure, Prod.mk.injEq,
    Except.ok.injEq]
  constructor
  · rintro ⟨pull, hpull, rows, hrows, hinsert, hfits, hfailed, -, -, ⟨hjson, hflush, rfl⟩, -, -, -,
      ⟨haudit, -, rfl⟩, -, hcommit, -, source', -, ⟨hrefresh, rfl, rfl⟩, hr, hs⟩
    refine ⟨hfailed, pull, rows, hpull, hrows, ?_, hr.symm, hs.symm⟩
    exact ⟨⟨fun h => (hinsert h).2, hflush, haudit, hcommit, hrefresh⟩, hfits, hjson⟩
  · rintro ⟨hfailed, pull, rows, hpull, hrows, hstorable, rfl, rfl⟩
    refine ⟨pull, hpull, rows, hrows, fun h => ⟨hfailed, hstorable.undisturbed.insert h⟩,
      hstorable.fits, hfailed, (), _, ⟨hstorable.cursor, hstorable.undisturbed.flush, rfl⟩, hfailed,
      (), _, ⟨hstorable.undisturbed.audit, trivial, rfl⟩, hfailed, hstorable.undisturbed.commit,
      hfailed, _, _, ⟨hstorable.undisturbed.refresh, rfl, rfl⟩, rfl, rfl⟩

theorem mem_mappedItems {name : String} {items : List Document} {position : ℕ} {raw : Document}
    {n : NormalizedAlert} (hraw : items[position]? = some raw)
    (hmap : env.map position i name raw = .ok n) :
    (raw, n) ∈ mappedItems (mapItems env i name items) := by
  refine List.mem_filterMap.mpr ⟨(raw, .ok n), ?_, rfl⟩
  refine List.mem_of_getElem? (i := position) ?_
  rw [mapItems, List.getElem?_mapIdx, hraw, Option.map_some, hmap]

/--
The batch goes through: it returns, every document whose row alone fits is in the table, and the
stored cursor is past the batch.
-/
def GoesThrough (lib : IngestLib) (i : ℕ) (source : DataSource) (cursor : CursorState)
    (env : BatchEnv) (s : IngestSession) (pull : PullResult) : Prop :=
  ∃ r s', exec (runBatch lib i source cursor env) s = (.ok r, s') ∧
    (∀ position raw n row, pull.items[position]? = some raw →
      env.map position i source.name raw = .ok n → rowOf lib env i n = .ok row →
      row.fits lib.columns = true → s'.committed.alerts.any (sameSourceAlert row) = true) ∧
    s'.committed.dataSources[i]?.map (·.cursorState) =
      some ((nextCursor pull cursor r.1.inserted).dump lib.pydantic)

/-- A batch of a Wazuh source goes through exactly when every mapped row of it fits. -/
theorem batch_goes_through_iff {clock : ℕ → MapClock}
    (hsource : s.db.dataSources[i]? = some source)
    (hpull : env.pull source.config cursor = .ok pull) :
    GoesThrough lib i source cursor (env.wazuh lib clock) s pull ↔
      s.failed = false ∧ ∃ rows,
        (mappedItems (mapItems (env.wazuh lib clock) i source.name pull.items)).mapM
          (fun m => rowOf lib env i m.2) = .ok rows ∧
        Storable lib (env.wazuh lib clock) s pull cursor rows := by
  constructor
  · rintro ⟨r, s', hexec, -⟩
    obtain ⟨hfailed, pull', rows, hpull', hrows, hstorable, -, -⟩ := exec_runBatch_ok.mp hexec
    obtain rfl : pull' = pull := Except.ok.inj (hpull'.symm.trans hpull)
    exact ⟨hfailed, rows, hrows, hstorable⟩
  · rintro ⟨hfailed, rows, hrows, hstorable⟩
    refine ⟨_, _, exec_runBatch_ok.mpr ⟨hfailed, pull, rows, hpull, hrows, hstorable, rfl, rfl⟩,
      ?_, ?_⟩
    · intro position raw n row hraw hmap hrow hfits
      obtain ⟨row', hmem, hrow'⟩ := exists_of_mapM_ok hrows (mem_mappedItems hraw hmap)
      obtain rfl := Except.ok.inj (hrow.symm.trans hrow')
      exact Conflicts.any_insertAbsent sameSourceAlert_refl hmem
    · simp [stored, List.getElem?_modify_eq, hsource, batchResult]

end

def goodLogins : List Document := [loginFailure "a1" [], loginFailure "a2" [("srcport", .str "22")]]

/-- The same logins and one whose port is no number, which cannot be mapped. -/
def mixedLogins : List Document := goodLogins ++ [loginFailure "a3" [("srcport", .str "ssh")]]

theorem batch_goes_through_logins :
    GoesThrough sampleLib 0 sampleSource {} ((sampleBatch mixedLogins).wazuh sampleLib sampleMapClock)
        (.opened { dataSources := [sampleSource] }) (samplePull mixedLogins) ∧
      (mappedItems (mapItems ((sampleBatch mixedLogins).wazuh sampleLib sampleMapClock) 0
        "wazuh-prod" mixedLogins)).length = 2 := by
  refine ⟨(batch_goes_through_iff rfl rfl).mpr
    ⟨rfl, _, rfl, ⟨⟨fun _ => rfl, rfl, rfl, rfl, rfl⟩, ?_, rfl⟩⟩, by decide +kernel⟩
  exact List.all_eq_true.mp (by decide +kernel)

/-- A failed login beside one whose port does not fit its column. -/
def poisonedLogins : List Document :=
  [loginFailure "a1" [], loginFailure "a2" [("srcport", .str "99999999999")]]

/-- Neither login is stored and the cursor stays. -/
theorem poisoned_batch_is_blocked :
    ¬ GoesThrough sampleLib 0 sampleSource {}
      ((sampleBatch poisonedLogins).wazuh sampleLib sampleMapClock)
      (.opened { dataSources := [sampleSource] }) (samplePull poisonedLogins) := by
  rintro ⟨r, s', hexec, -⟩
  have hnone : (returned (Ingest.runBatch sampleLib 0 sampleSource {}
      ((sampleBatch poisonedLogins).wazuh sampleLib sampleMapClock))
      (.opened { dataSources := [sampleSource] })).isNone = true := by decide +kernel
  rw [returned, hexec] at hnone
  cases hnone

end Ingest

end Minsight

import Minsight.Ingestion.Blocking

/-! # The books of a source

Every batch accounts for what it pulled, an alert is stored once, and the total in the cursor is
the number of rows that all runs inserted. A run is a chain of batches, and each batch keeps the
books.
-/

namespace Minsight

open Tx

namespace Ingest

section

variable {rt : Runtime} {raw : Document} {id : String}

/-- The `_id` of a document, if it is not blank. -/
def docId (rt : Runtime) (raw : Document) : Option String := firstStr rt [raw.lookup "_id"]

theorem firstStr_cons (v : Option Json) (vs : List (Option Json)) :
    firstStr rt (v :: vs) = (firstStr rt [v]).or (firstStr rt vs) := by
  simp only [firstStr, List.findSome?_cons, List.findSome?_nil]
  cases (present v).bind fun v => truthyText (some (strip (rt.str v))) <;> rfl

theorem extractSourceAlertId_docId (now : Time) (h : docId rt raw = some id) :
    extractSourceAlertId rt now raw = .ok id := by
  have hfirst : firstStr rt [raw.lookup "_id", raw.lookup "id"] = some id := by
    rw [firstStr_cons, show firstStr rt [raw.lookup "_id"] = some id from h, Option.some_or]
  rw [extractSourceAlertId, hfirst]

theorem mapWazuhAlert_id {int : String → Option ℤ} {uuid name : String} {clock : MapClock}
    {n : NormalizedAlert} (h : mapWazuhAlert rt int uuid name clock raw = .ok n) :
    extractSourceAlertId rt clock.idAt raw = .ok n.sourceAlertId := by
  simp only [mapWazuhAlert, except_bind_ok] at h
  obtain ⟨_, -, _, -, _, -, _, -, _, -, _, -, _, -, id, hid, _, -, _, -, _, -, h⟩ := h
  rw [hid, ← Except.ok.inj h]

theorem lookup_id_normalizeHit (d : Doc) : (normalizeHit d).lookup "_id" = some (.str d.id) := by
  rw [normalizeHit, lookup_setField_ne _ _ (by decide), lookup_setField_ne _ _ (by decide),
    lookup_setField_self]

end

section

variable {lib : IngestLib} {i : ℕ} {source source' : DataSource} {cursor : CursorState}
  {s s' s'' : IngestSession} {pull : PullResult} {rows : List Alert} {b : IngestBatchResult}

theorem pull_ok {w : WazuhBatch} {config : Json} (h : w.pull lib config cursor = .ok pull) :
    pull.fetched = pull.items.length ∧ ∀ raw ∈ pull.items, ∃ d ∈ w.index, raw = normalizeHit d := by
  unfold WazuhBatch.pull at h
  split at h
  · cases h
  · cases h
  · rename_i parsed _ _
    cases hsearch : searchAlerts lib.rt lib.searchAfter parsed.initialLookbackHours w.index w.clock
        cursor (min 500 parsed.batchSize) with
    | none => rw [hsearch] at h; cases h
    | some found =>
      rw [hsearch] at h
      obtain rfl : found = pull := Except.ok.inj h
      simp only [searchAlerts, search, Option.bind_eq_bind, Option.bind_eq_some_iff,
        Option.map_eq_some_iff] at hsearch
      obtain ⟨hits, ⟨k, -, rfl⟩, next, -, hfound⟩ := hsearch
      obtain rfl := Option.some.inj hfound
      refine ⟨rfl, fun raw hraw => ?_⟩
      obtain ⟨d, hd, rfl⟩ := List.mem_map.mp hraw
      have hshown := List.mem_of_mem_filter (List.mem_of_mem_take hd)
      exact ⟨d, (ordered_perm w.index).subset hshown, rfl⟩

theorem mapped_or_raised (mapped : List (Document × Except Exn NormalizedAlert)) :
    (mappedItems mapped).length + (mapErrors mapped).length = mapped.length := by
  induction mapped with
  | nil => rfl
  | cons m mapped ih =>
    obtain ⟨raw, e | n⟩ := m
    · change (mappedItems mapped).length + ((mapErrors mapped).length + 1) = mapped.length + 1
      omega
    · change (mappedItems mapped).length + 1 + (mapErrors mapped).length = mapped.length + 1
      omega

theorem newRows_le (alerts : Rows Alert) (rows : List Alert) : newRows alerts rows ≤ rows.length := by
  have hle : (insertNew alerts rows).length ≤ alerts.length + rows.length :=
    Conflicts.length_insertAbsent_le
  rw [newRows]
  omega

/-- What was fetched was inserted, there already, or could not be mapped. -/
def Balanced (b : IngestBatchResult) : Prop := b.fetched = b.inserted + b.duplicates + b.mapErrors

theorem rowOf_ok {env : BatchEnv} {n : NormalizedAlert} {row : Alert}
    (h : rowOf lib env i n = .ok row) :
    row.dataSourceId = i ∧ row.sourceAlertId = n.sourceAlertId := by
  have hid : ∀ n', enrichSrcGeo lib.geo n = .ok n' → n'.sourceAlertId = n.sourceAlertId := by
    intro n' hn
    unfold enrichSrcGeo at hn
    split at hn
    · rw [← Except.ok.inj hn]
    · split at hn
      · rw [← Except.ok.inj hn]
      · obtain ⟨found, -, hn⟩ := except_bind_ok.mp hn
        split at hn <;> rw [← Except.ok.inj hn]
  unfold rowOf at h
  cases hn : enrichSrcGeo lib.geo n with
  | error e => rw [hn] at h; cases h
  | ok n' =>
    rw [hn] at h
    rw [← Except.ok.inj h]
    exact ⟨rfl, hid n' hn⟩

/-- One batch of a run, with the cursor the source has and the cursor it leaves. -/
structure BatchStep (lib : IngestLib) (i : ℕ) (env : BatchEnv) (s : IngestSession)
    (b : IngestBatchResult) (s' : IngestSession) : Prop where
  runs : ∃ source cursor source', s.db.dataSources[i]? = some source ∧
    CursorState.load lib.pydantic source.cursorState = some cursor ∧
    exec (runBatch lib i source cursor env) s = (.ok (b, source'), s')
  loads : ∃ source cursor, s'.db.dataSources[i]? = some source ∧
    CursorState.load lib.pydantic source.cursorState = some cursor

/-- Batch after batch, from the `n`-th on. -/
inductive Chain (lib : IngestLib) (i : ℕ) (batches : ℕ → BatchEnv) :
    ℕ → IngestSession → List IngestBatchResult → IngestSession → Prop
  | done (n : ℕ) (s : IngestSession) : Chain lib i batches n s [] s
  | step {n : ℕ} {s s' s'' : IngestSession} {b : IngestBatchResult} {bs : List IngestBatchResult} :
    BatchStep lib i (batches n) s b s' → Chain lib i batches (n + 1) s' bs s'' →
      Chain lib i batches n s (b :: bs) s''

theorem BatchStep.balanced {w : WazuhBatch} (h : BatchStep lib i (w.env lib) s b s') :
    Balanced b := by
  obtain ⟨source, cursor, source', -, -, hexec⟩ := h.runs
  obtain ⟨-, pull, rows, hpull, hrows, -, hr, -⟩ := exec_runBatch_ok.mp hexec
  obtain ⟨rfl, -⟩ := Prod.mk.inj hr
  have hitems := (pull_ok hpull).1
  have hlength := length_of_mapM_ok hrows
  have hall := mapped_or_raised (mapItems (w.env lib) i source.name pull.items)
  have hle := newRows_le s.db.alerts rows
  have hcount : (mapItems (w.env lib) i source.name pull.items).length = pull.items.length := by
    rw [mapItems, List.length_mapIdx]
  simp only [Balanced, batchResult]
  omega

/-- What the transaction of a batch sees of it: the outcomes of mapping, with addresses looked up. -/
def asTransaction (lib : IngestLib) (i : ℕ) (source : DataSource) (env : BatchEnv)
    (pull : PullResult) : IngestBatchEnv where
  now := env.now
  items := (mapItems env i source.name pull.items).map fun m => m.2.bind (enrichSrcGeo lib.geo)
  hasMore := pull.hasMore

theorem rows_of_mapM {env : BatchEnv} {mapped : List (Document × Except Exn NormalizedAlert)}
    (h : (mappedItems mapped).mapM (fun m => rowOf lib env i m.2) = .ok rows) :
    ((mapped.map fun m => m.2.bind (enrichSrcGeo lib.geo)).filterMap Except.toOption).map
      (alertRow i env.now) = rows := by
  induction mapped generalizing rows with
  | nil => exact Except.ok.inj h
  | cons m mapped ih =>
    obtain ⟨raw, e | n⟩ := m
    · exact ih h
    · have hcons : mappedItems ((raw, .ok n) :: mapped) = (raw, n) :: mappedItems mapped := rfl
      rw [hcons, List.mapM_cons] at h
      obtain ⟨row, hrow, h⟩ := except_bind_ok.mp h
      obtain ⟨rest, hrest, h⟩ := except_bind_ok.mp h
      obtain rfl := Except.ok.inj h
      cases hgeo : enrichSrcGeo lib.geo n with
      | error e =>
        rw [rowOf, hgeo] at hrow
        cases hrow
      | ok n' =>
        rw [rowOf, hgeo] at hrow
        obtain rfl := Except.ok.inj hrow
        have hbind : (Except.ok n : Except Exn NormalizedAlert).bind (enrichSrcGeo lib.geo) =
          .ok n' := hgeo
        rw [List.map_cons, hbind, List.filterMap_cons_some (by rfl), List.map_cons, ih hrest]

/--
A batch that returns has the effect of one transaction: the same rows are committed and the same
numbers come back.
-/
theorem runBatch_transaction {w : WazuhBatch} {world : World}
    (h : exec (runBatch lib i source cursor (w.env lib)) s = (.ok (b, source'), s'))
    (halerts : world.db.alerts = s.db.alerts)
    (hclock : lib.rt.clock.reading world.out.clock w.now = w.now) :
    ∃ pull world', w.pull lib source.config cursor = .ok pull ∧
      exec (Minsight.runBatch lib.rt i (asTransaction lib i source (w.env lib) pull)) world =
        (.ok { b with errors := [] }, world') ∧
      world'.db = { world.db with alerts := s'.committed.alerts } := by
  obtain ⟨-, pull, rows, hpull, hrows, -, hr, rfl⟩ := exec_runBatch_ok.mp h
  obtain ⟨rfl, -⟩ := Prod.mk.inj hr
  have hlength := length_of_mapM_ok hrows
  have hall := mapped_or_raised (mapItems (w.env lib) i source.name pull.items)
  have hcount := (pull_ok hpull).1
  let batch := asTransaction lib i source (w.env lib) pull
  have hrows' : (batch.items.filterMap Except.toOption).map
      (alertRow i (lib.rt.clock.reading world.out.clock batch.now)) = rows := by
    rw [show lib.rt.clock.reading world.out.clock batch.now = w.now from hclock]
    exact rows_of_mapM hrows
  refine ⟨pull, { world with
    db := { world.db with alerts := insertNew s.db.alerts rows }
    out := { world.out with clock := lib.rt.clock.reading world.out.clock batch.now } }, hpull,
    ?_, rfl⟩
  rw [Minsight.runBatch, Session.transaction, exec_atomically_ok]
  simp only [exec_fallible_bind_ok, exec_utcNow_bind, Session.exec_query_bind,
    Session.exec_modify_bind, exec_pure]
  refine ⟨rfl, rfl, ?_⟩
  rw [hrows', halerts]
  have hitems : (mapItems (w.env lib) i source.name pull.items).length = pull.items.length :=
    List.length_mapIdx
  have hfetched : batch.items.length = pull.items.length := List.length_map _ |>.trans hitems
  have hmap : (batch.items.filterMap Except.toOption).length = rows.length := by
    rw [← hrows', List.length_map]
  have herrors : batch.items.length - (batch.items.filterMap Except.toOption).length =
      (mapErrors (mapItems (w.env lib) i source.name pull.items)).length := by
    rw [hfetched, hmap]
    omega
  rw [herrors, hfetched, ← hcount]
  rfl

theorem chain_of_runBatches {batches : ℕ → BatchEnv} {left n : ℕ} {result result' : IngestRunResult}
    (hsource : s.db.dataSources[i]? = some source)
    (hload : CursorState.load lib.pydantic source.cursorState = some cursor)
    (h : exec (runBatches lib i batches left n result source cursor) s = (.ok result', s')) :
    ∃ bs, result' = { result with batches := result.batches ++ bs } ∧
      Chain lib i batches n s bs s' := by
  induction left generalizing n result source cursor s with
  | zero =>
    simp only [runBatches, exec_pure, Prod.mk.injEq, Except.ok.injEq] at h
    obtain ⟨rfl, rfl⟩ := h
    exact ⟨[], by rw [List.append_nil], .done n s⟩
  | succ left ih =>
    rw [runBatches, exec_bind_ok] at h
    obtain ⟨⟨b, source₁⟩, s₁, hbatch, h⟩ := h
    have hrow : s₁.db.dataSources[i]? = some source₁ := by
      obtain ⟨-, pull, rows, -, -, -, hr, rfl⟩ := exec_runBatch_ok.mp hbatch
      obtain ⟨-, rfl⟩ := Prod.mk.inj hr
      simp [stored, List.getElem?_modify_eq, hsource]
    dsimp only at h
    cases hnext : CursorState.load lib.pydantic source₁.cursorState with
    | none =>
      rw [hnext] at h
      cases h
    | some cursor₁ =>
      rw [hnext] at h
      have hstep : BatchStep lib i (batches n) s b s₁ :=
        ⟨⟨source, cursor, source₁, hsource, hload, hbatch⟩, source₁, cursor₁, hrow, hnext⟩
      dsimp only at h
      split at h
      · obtain ⟨bs, hbs, hchain⟩ := ih hrow hnext h
        exact ⟨b :: bs, by rw [hbs, List.append_assoc]; rfl, .step hstep hchain⟩
      · simp only [exec_pure, Prod.mk.injEq, Except.ok.injEq] at h
        obtain ⟨rfl, rfl⟩ := h
        exact ⟨[b], rfl, .step hstep (.done _ _)⟩

theorem chain_of_execute {registered : List String} {maxBatches : ℕ} {env : RunEnv}
    {result : IngestRunResult} (hsource : s.db.dataSources[i]? = some source)
    (h : exec (execute lib registered i source maxBatches env) s = (.ok result, s')) :
    result = { dataSourceId := i, batches := result.batches } ∧
      Chain lib i env.batches 0 s result.batches s' := by
  unfold execute at h
  split at h
  · obtain ⟨-, h⟩ := exec_fallible_bind_ok.mp h
    split at h
    · cases h
    · rename_i cursor hload
      obtain ⟨bs, rfl, hchain⟩ := chain_of_runBatches hsource hload h
      exact ⟨rfl, hchain⟩
  · cases h

theorem runForSource_cases {registered : List String} {maxBatches : ℕ} {useLock : Bool}
    {env : RunEnv} {result : IngestRunResult}
    (h : exec (runForSource lib registered i maxBatches useLock env) s = (.ok result, s')) :
    s.failed = false ∧
      ((result = { dataSourceId := i, skippedInactive := true } ∧ s' = s) ∨
        (result = { dataSourceId := i, skippedLock := true } ∧ s' = s) ∨
        ∃ source, s.db.dataSources[i]? = some source ∧
          exec (execute lib registered i source maxBatches env) s = (.ok result, s')) := by
  simp only [runForSource, getSource, exec_statement_bind_ok, answer_ok] at h
  obtain ⟨hfailed, found, _, ⟨-, rfl, rfl⟩, h⟩ := h
  refine ⟨hfailed, ?_⟩
  cases hsource : s.db.dataSources[i]? with
  | none => rw [hsource] at h; cases h
  | some source =>
    rw [hsource] at h
    dsimp only at h
    split at h
    · simp only [exec_pure, Prod.mk.injEq, Except.ok.injEq] at h
      exact .inl ⟨h.1.symm, h.2.symm⟩
    · split at h
      · obtain ⟨-, h⟩ := exec_fallible_bind_ok.mp h
        split at h
        · rw [exec_bind_attempt] at h
          obtain ⟨-, h⟩ := exec_fallible_bind_ok.mp h
          cases hrun : exec (execute lib registered i source maxBatches env) s with
          | mk r s₁ =>
            rw [hrun] at h
            cases r with
            | error e => cases h
            | ok result₁ =>
              obtain ⟨rfl, rfl⟩ : result₁ = result ∧ s₁ = s' := by
                simpa only [outcome, exec_pure, Prod.mk.injEq, Except.ok.injEq] using h
              exact .inr (.inr ⟨source, rfl, hrun⟩)
        · simp only [exec_pure, Prod.mk.injEq, Except.ok.injEq] at h
          exact .inr (.inl ⟨h.1.symm, h.2.symm⟩)
      · exact .inr (.inr ⟨source, rfl, h⟩)

theorem chain_of_runForSource {registered : List String} {maxBatches : ℕ} {useLock : Bool}
    {env : RunEnv} {result : IngestRunResult}
    (h : exec (runForSource lib registered i maxBatches useLock env) s = (.ok result, s')) :
    Chain lib i env.batches 0 s result.batches s' := by
  obtain ⟨-, ⟨rfl, rfl⟩ | ⟨rfl, rfl⟩ | ⟨source, hsource, hexec⟩⟩ := runForSource_cases h
  · exact .done 0 s'
  · exact .done 0 s'
  · exact (chain_of_execute hsource hexec).2

/-- The total that a stored cursor shows, to a run that loads it and to a reset. -/
structure Counts (p : Pydantic) (cursorState : Json) (total : ℕ) : Prop where
  loaded : ∃ cursor, CursorState.load p cursorState = some cursor ∧ cursor.totalIngested = total
  kept : (if cursorState.truthy then (cursorState.get? "total_ingested").getD (.int 0)
    else .int 0) = .int total

structure Books (lib : IngestLib) (i : ℕ) (s : IngestSession) (total : ℕ) : Prop where
  clean : s.failed = false
  settled : s.db = s.committed
  apart : Conflicts.Apart sameSourceAlert s.committed.alerts
  seen : ∀ d ∈ s.seen, ∃ id, docId lib.rt d = some id ∧
    ∃ a ∈ s.committed.alerts, a.dataSourceId = i ∧ a.sourceAlertId = id
  counted : ∃ source, s.committed.dataSources[i]? = some source ∧
    Counts lib.pydantic source.cursorState total

theorem counts_dump {p : Pydantic} {c c' : CursorState} {total : ℕ} (h : c.totalIngested = total)
    (hload : CursorState.load p (c.dump p) = some c') : Counts p (c.dump p) total := by
  refine ⟨⟨c', hload, ?_⟩, by rw [← h]; rfl⟩
  have hvalid : CursorState.validate p (c.dump p) = some c' := hload
  have htotal : readField (c.dump p) "total_ingested" 0 p.readInt = some c.totalIngested :=
    (CursorState.readField_of_get rfl).trans (p.readInt_int _)
  simp only [CursorState.validate, Option.bind_eq_bind, Option.bind_eq_some_iff] at hvalid
  obtain ⟨fields, hfields, _, -, _, -, _, -, _, -, _, -, t, ht, hc⟩ := hvalid
  obtain rfl : c.dump p = fields := Option.some.inj hfields
  obtain rfl : c.totalIngested = t := Option.some.inj (htotal.symm.trans ht)
  rw [← Option.some.inj hc, h]

/-- Every hit of every batch has an `_id` that is not blank. -/
def Named (lib : IngestLib) (w : WazuhBatch) : Prop :=
  ∀ d ∈ w.index, docId lib.rt (normalizeHit d) ≠ none

theorem named_pull {w : WazuhBatch} {config : Json} (named : Named lib w)
    (h : w.pull lib config cursor = .ok pull) :
    ∀ raw ∈ pull.items, ∃ id, docId lib.rt raw = some id := by
  intro raw hraw
  obtain ⟨d, hd, rfl⟩ := (pull_ok h).2 raw hraw
  exact Option.ne_none_iff_exists'.mp (named d hd)

/-- The mapped documents of a batch are pulled documents, stored under their ids. -/
theorem mappedItems_id {w : WazuhBatch} {name : String} {items : List Document} {raw : Document}
    {n : NormalizedAlert} (h : (raw, n) ∈ mappedItems (mapItems (w.env lib) i name items)) :
    raw ∈ items ∧ ∀ id, docId lib.rt raw = some id → n.sourceAlertId = id := by
  obtain ⟨⟨raw', r⟩, hm, hr⟩ := List.mem_filterMap.mp h
  obtain ⟨position, hlt, hitem⟩ := List.mem_mapIdx.mp hm
  obtain ⟨rfl, rfl⟩ := Prod.mk.inj hitem
  obtain ⟨n', hn, heq⟩ := Option.map_eq_some_iff.mp hr
  obtain ⟨rfl, rfl⟩ := Prod.mk.inj heq
  refine ⟨List.getElem_mem hlt, fun id hid => ?_⟩
  have hmap : mapWazuhAlert lib.rt lib.int (lib.uuid i) name (w.mapClock position) items[position] =
      .ok n' := by
    cases hr' : (w.env lib).map position i name items[position] with
    | error e => rw [hr'] at hn; cases hn
    | ok n'' =>
      rw [hr'] at hn
      rw [← Option.some.inj hn]
      exact hr'
  exact Except.ok.inj ((mapWazuhAlert_id hmap).symm.trans (extractSourceAlertId_docId _ hid))

theorem BatchStep.books {w : WazuhBatch} {total : ℕ} (named : Named lib w)
    (h : BatchStep lib i (w.env lib) s b s') (books : Books lib i s total) :
    Books lib i s' (total + b.inserted) := by
  obtain ⟨source, cursor, source', hsource, hload, hexec⟩ := h.runs
  obtain ⟨row, cursor', hrow, hload'⟩ := h.loads
  obtain ⟨-, pull, rows, hpull, hrows, -, hr, rfl⟩ := exec_runBatch_ok.mp hexec
  obtain ⟨rfl, -⟩ := Prod.mk.inj hr
  have htotal : cursor.totalIngested = total := by
    obtain ⟨source₁, hsource₁, ⟨cursor₁, hload₁, htotal⟩, -⟩ := books.counted
    rw [books.settled] at hsource
    obtain rfl := Option.some.inj (hsource.symm.trans hsource₁)
    rw [← htotal, Option.some.inj (hload.symm.trans hload₁)]
  have hstored : (stored lib i s.db pull cursor rows).dataSources[i]? =
      some { source with cursorState :=
        (nextCursor pull cursor (newRows s.db.alerts rows)).dump lib.pydantic } := by
    simp [stored, List.getElem?_modify_eq, hsource]
  refine ⟨books.clean, rfl, ?_, fun d hd => ?_, _, hstored, ?_⟩
  · have hapart : Conflicts.Apart sameSourceAlert s.db.alerts := by
      rw [books.settled]
      exact books.apart
    exact hapart.insertAbsent
  · have hprefix : s.db.alerts <+: insertNew s.db.alerts rows := Conflicts.prefix_insertAbsent
    rcases List.mem_append.mp hd with hd | hd
    · obtain ⟨id, hid, a, ha, hsame⟩ := books.seen d hd
      rw [← books.settled] at ha
      exact ⟨id, hid, a, hprefix.subset ha, hsame⟩
    · obtain ⟨⟨_, n⟩, hmapped, rfl⟩ := List.mem_map.mp hd
      obtain ⟨hraw, hn⟩ := mappedItems_id hmapped
      obtain ⟨id, hid⟩ := named_pull named hpull _ hraw
      obtain ⟨row, hmem, hrow⟩ := exists_of_mapM_ok hrows hmapped
      obtain ⟨hsourceId, halertId⟩ := rowOf_ok hrow
      have hany : (insertNew s.db.alerts rows).any (sameSourceAlert row) = true :=
        Conflicts.any_insertAbsent sameSourceAlert_refl hmem
      obtain ⟨a, ha, hsame⟩ := List.any_eq_true.mp hany
      obtain ⟨hi, halert⟩ := sameSourceAlert_iff.mp hsame
      exact ⟨id, hid, a, ha, hi ▸ hsourceId, by rw [← halert, halertId, hn id hid]⟩
  · obtain rfl := Option.some.inj (hrow.symm.trans hstored)
    refine counts_dump ?_ hload'
    rw [nextCursor, htotal, Nat.cast_add]
    rfl

theorem BatchStep.seen_subset {env : BatchEnv} (h : BatchStep lib i env s b s') :
    s.seen ⊆ s'.seen := by
  obtain ⟨source, cursor, source', -, -, hexec⟩ := h.runs
  obtain ⟨-, pull, rows, -, -, -, -, rfl⟩ := exec_runBatch_ok.mp hexec
  exact List.subset_append_left _ _

/-- Every document the batch can pull has the id of one that was ingested. -/
def Repeats (lib : IngestLib) (w : WazuhBatch) (seen : List Document) : Prop :=
  ∀ config cursor pull, w.pull lib config cursor = .ok pull →
    ∀ raw ∈ pull.items, ∃ d ∈ seen, d.lookup "_id" = raw.lookup "_id"

theorem BatchStep.repeats {w : WazuhBatch} {total : ℕ} (h : BatchStep lib i (w.env lib) s b s')
    (books : Books lib i s total) (repeats : Repeats lib w s.seen) : b.inserted = 0 := by
  obtain ⟨source, cursor, source', hsource, hload, hexec⟩ := h.runs
  obtain ⟨-, pull, rows, hpull, hrows, -, hr, -⟩ := exec_runBatch_ok.mp hexec
  obtain ⟨rfl, -⟩ := Prod.mk.inj hr
  have hall : insertNew s.db.alerts rows = s.db.alerts := by
    refine Conflicts.insertAbsent_eq_self fun row hrow => ?_
    obtain ⟨⟨raw, n⟩, hmapped, hn⟩ := mem_mapM_ok hrows hrow
    obtain ⟨hraw, hid⟩ := mappedItems_id hmapped
    obtain ⟨d, hd, heq⟩ := repeats _ _ _ hpull raw hraw
    obtain ⟨id, hdoc, a, ha, hi, ha'⟩ := books.seen d hd
    obtain ⟨hsourceId, halertId⟩ := rowOf_ok hn
    rw [docId, heq] at hdoc
    rw [← books.settled] at ha
    refine List.any_eq_true.mpr ⟨a, ha, sameSourceAlert_iff.mpr ⟨by rw [hsourceId, hi], ?_⟩⟩
    rw [halertId, hid id hdoc, ha']
  simp only [batchResult, newRows, hall, Nat.sub_self]

variable {batches : ℕ → WazuhBatch} {n total : ℕ} {bs : List IngestBatchResult}

theorem Chain.balanced (h : Chain lib i (fun n => (batches n).env lib) n s bs s') :
    ∀ b ∈ bs, Balanced b := by
  induction h with
  | done => exact List.forall_mem_nil _
  | step hstep _ ih => exact List.forall_mem_cons.mpr ⟨hstep.balanced, ih⟩

theorem Chain.books (h : Chain lib i (fun n => (batches n).env lib) n s bs s')
    (named : ∀ n, Named lib (batches n)) (books : Books lib i s total) :
    Books lib i s' (total + (bs.map (·.inserted)).sum) := by
  induction h generalizing total with
  | done => exact books
  | step hstep _ ih =>
    rw [List.map_cons, List.sum_cons, ← Nat.add_assoc]
    exact ih (hstep.books (named _) books)

theorem Chain.repeats {seen : List Document}
    (h : Chain lib i (fun n => (batches n).env lib) n s bs s')
    (named : ∀ n, Named lib (batches n)) (books : Books lib i s total)
    (hseen : seen ⊆ s.seen) (repeats : ∀ n, Repeats lib (batches n) seen) :
    ∀ b ∈ bs, b.inserted = 0 := by
  induction h generalizing total with
  | done => exact List.forall_mem_nil _
  | step hstep _ ih =>
    refine List.forall_mem_cons.mpr ⟨hstep.repeats books ?_, ?_⟩
    · intro config cursor pull hpull raw hraw
      obtain ⟨d, hd, heq⟩ := repeats _ config cursor pull hpull raw hraw
      exact ⟨d, hseen hd, heq⟩
    · exact ih (hstep.books (named _) books) (List.Subset.trans hseen hstep.seen_subset)

/-- A cursor without a time and sort values is loaded if its other fields can be read. -/
theorem load_of_fresh {p : Pydantic} {fields : List (String × Json)} {version total : ℤ}
    {mode : String} {run : Option Time} (hne : fields ≠ [])
    (hversion : readField (.obj fields) "version" 1 p.readInt = some version)
    (hmode : readField (.obj fields) "mode" "search_after" Json.asStr? = some mode)
    (hoccurred : readField (.obj fields) "last_occurred_at" none (readOptional p.readTime) =
      some none)
    (hsort : readField (.obj fields) "last_sort_values" none (readOptional Json.asArr?) = some none)
    (hrun : readField (.obj fields) "last_successful_run_at" none (readOptional p.readTime) =
      some run)
    (htotal : readField (.obj fields) "total_ingested" 0 p.readInt = some total) :
    CursorState.load p (.obj fields) = some {
      version, mode, lastSuccessfulRunAt := run, totalIngested := total } := by
  have htruthy : (Json.obj fields).truthy = true := by simp [Json.truthy, hne]
  simp only [CursorState.load, htruthy, if_true, CursorState.validate, Json.asObj?, hversion, hmode,
    hoccurred, hsort, hrun, htotal, Option.bind_eq_bind, Option.bind_some]

theorem load_freshCursor {p : Pydantic} {total : Json} {n : ℤ} (h : p.readInt total = some n) :
    CursorState.load p (freshCursor total) = some { totalIngested := n } :=
  load_of_fresh (List.cons_ne_nil _ _) ((CursorState.readField_of_get rfl).trans (p.readInt_int 1))
    ((CursorState.readField_of_get rfl).trans rfl) ((CursorState.readField_of_get rfl).trans rfl)
    ((CursorState.readField_of_get rfl).trans rfl) rfl ((CursorState.readField_of_get rfl).trans h)

theorem counts_reset {p : Pydantic} {cursorState : Json} (h : Counts p cursorState total) :
    Counts p (resetCursor cursorState) total := by
  rw [resetCursor, h.kept]
  exact ⟨⟨_, load_freshCursor (p.readInt_int total), rfl⟩, rfl⟩

theorem extendLookback_books {lookbackHours : ℤ} {reset : Bool}
    {selectFault flushFault commitFault : Option Exn} (books : Books lib i s total)
    (h : exec (extendLookback lib i lookbackHours reset selectFault flushFault commitFault) s =
      (.ok (), s')) : Books lib i s' total := by
  simp only [extendLookback, getSource, exec_statement_bind_ok, answer_ok] at h
  obtain ⟨-, found, _, ⟨-, rfl, rfl⟩, h⟩ := h
  obtain ⟨source, hsource, hcounts⟩ := books.counted
  rw [books.settled, hsource] at h
  dsimp only at h
  split at h
  · rw [← bind_pure (commit commitFault)] at h
    simp only [flush, exec_attemptStatement_bind_ok, exec_commit_bind_ok, answer_ok, exec_pure,
      Prod.mk.injEq] at h
    obtain ⟨-, _, _, ⟨-, -, rfl⟩, -, -, -, rfl⟩ := h
    refine ⟨books.clean, rfl, books.apart, books.seen, lookBack lookbackHours reset source, ?_, ?_⟩
    · simp [List.getElem?_modify_eq, hsource]
    · cases reset with
      | true => exact counts_reset hcounts
      | false => exact hcounts
  · cases h

/-- A source that nothing was ingested from, in a table of distinct alerts. -/
structure Untouched (i : ℕ) (db : IngestDb) : Prop where
  source : ∃ source, db.dataSources[i]? = some source ∧ source.cursorState = .obj []
  apart : Conflicts.Apart sameSourceAlert db.alerts

/-- The next session on the same database. -/
def reopened (s : IngestSession) : IngestSession :=
  { s with db := s.committed, failed := false, expired := false }

/-- Runs and resets of one source that return, each on a session of its own. -/
inductive History (lib : IngestLib) (i : ℕ) : IngestSession → List IngestRunResult → Prop
  | start {db : IngestDb} : Untouched i db → History lib i (.opened db) []
  | run {s s' : IngestSession} {results : List IngestRunResult} {registered : List String}
    {maxBatches : ℕ} {useLock : Bool} {run : WazuhRun} {result : IngestRunResult} :
    History lib i s results → (∀ n, Named lib (run.batches n)) →
      exec (runForSource lib registered i maxBatches useLock (run.env lib)) (reopened s) =
        (.ok result, s') →
      History lib i s' (results ++ [result])
  | reset {s s' : IngestSession} {results : List IngestRunResult} {lookbackHours : ℤ}
    {reset : Bool} {selectFault flushFault commitFault : Option Exn} :
    History lib i s results →
      exec (extendLookback lib i lookbackHours reset selectFault flushFault commitFault) (reopened s) =
        (.ok (), s') →
      History lib i s' results

theorem Books.reopened (books : Books lib i s total) : Books lib i (reopened s) total :=
  ⟨rfl, rfl, books.apart, books.seen, books.counted⟩

theorem Untouched.books {db : IngestDb} (h : Untouched i db) : Books lib i (.opened db) 0 := by
  obtain ⟨source, hsource, hempty⟩ := h.source
  refine ⟨rfl, rfl, h.apart, List.forall_mem_nil _, source, hsource, ?_⟩
  rw [hempty]
  exact ⟨⟨{}, rfl, rfl⟩, rfl⟩

theorem History.books {results : List IngestRunResult} (h : History lib i s results) :
    Books lib i s (results.map (·.totalInserted)).sum ∧
      ∀ r ∈ results, ∀ b ∈ r.batches, Balanced b := by
  induction h with
  | start huntouched => exact ⟨huntouched.books, List.forall_mem_nil _⟩
  | run _ named hexec ih =>
    obtain ⟨books, balanced⟩ := ih
    have chain := chain_of_runForSource hexec
    rw [List.map_append, List.sum_append, List.map_singleton, List.sum_singleton]
    refine ⟨chain.books named books.reopened, fun r hr => ?_⟩
    rcases List.mem_append.mp hr with hr | hr
    · exact balanced r hr
    · rw [List.mem_singleton.mp hr]
      exact chain.balanced
  | reset _ hexec ih => exact ⟨extendLookback_books ih.1.reopened hexec, ih.2⟩

theorem apart_iff_nodup {alerts : Rows Alert} :
    Conflicts.Apart sameSourceAlert alerts ↔
      (alerts.map fun a => (a.dataSourceId, a.sourceAlertId)).Nodup := by
  rw [List.Nodup, List.pairwise_map, Conflicts.Apart]
  refine List.Pairwise.iff fun {a b} => ?_
  rw [← Bool.not_eq_true, sameSourceAlert_iff, ne_eq, Prod.mk.injEq, not_iff_not]
  exact ⟨fun h => ⟨h.1.symm, h.2.symm⟩, fun h => ⟨h.1.symm, h.2.symm⟩⟩

end

/-- An index with one login in two of its parts, and a document whose rule is no object. -/
def mixedIndex : List Doc :=
  [{ sampleDoc "a1" 0 "" with source := loginFailure "" [] },
    { sampleDoc "a1" 0 "" with source := loginFailure "" [], index := "wazuh-alerts-4.x-copy" },
    { sampleDoc "a2" 60 "2026-01-01T00:01:00Z" with source := [("rule", .str "5710")] }]

def mixedRun : WazuhRun where
  batches _ := {
    index := mixedIndex
    clock := sampleClock
    mapClock := sampleMapClock
    now := 1767268800000000 }

theorem mixedRun_named (n : ℕ) : Named sampleLib (mixedRun.batches n) := by
  have hall : mixedIndex.all fun d => (docId sampleLib.rt (normalizeHit d)).isSome := by
    decide +kernel
  intro d hd
  exact Option.isSome_iff_ne_none.mp (List.all_eq_true.mp hall d hd)

end Ingest

end Minsight

import Minsight.Ingestion.Accounting
import Minsight.Ingestion.Pagination

/-! # Documents yet to come

A document inside the lookback window is yet to come while every search that starts from the
stored source has it in its window. A batch either stores such a document or leaves it yet to
come, and a reset makes all of them yet to come.
-/

namespace Minsight

namespace Ingest

/-- `id` is the source's document of that id. -/
def StoredAs (i : ℕ) (id : String) (alerts : Rows Alert) : Prop :=
  ∃ a ∈ alerts, a.dataSourceId = i ∧ a.sourceAlertId = id

section

variable (lib : IngestLib) (lookbackHours : ℤ)

def Inside (clock : PullClock) (d : Doc) : Prop :=
  clock.windowAt - hours lookbackHours ≤ d.timestamp

def LooksBack (config : Json) : Prop :=
  ∃ parsed, WazuhIndexerConfig.validate lib.pydantic config = some parsed ∧
    parsed.initialLookbackHours = lookbackHours

/-- A search from the stored source that looks back to the document has it in its window. -/
def YetToCome (source : DataSource) (d : Doc) : Prop :=
  ∃ parsed cursor k, WazuhIndexerConfig.validate lib.pydantic source.config = some parsed ∧
    CursorState.load lib.pydantic source.cursorState = some cursor ∧
    readAfter lib.searchAfter cursor.searchAfter = some k ∧
    ∀ clock, Inside lookbackHours clock d →
      (windowOf parsed.initialLookbackHours clock cursor k).shows Doc.timestamp Doc.key d = true

/-- A value that equals an integer is read as that integer. -/
def ReadsEqualInts (p : Pydantic) : Prop :=
  ∀ (value : Json) (n : ℤ), value.same (.int n) = true → p.readInt value = some n

def KeepsTotal (p : Pydantic) (cursorState : Json) : Prop :=
  ∃ n, p.readInt (if cursorState.truthy then (cursorState.get? "total_ingested").getD (.int 0)
    else .int 0) = some n

end

variable {lib : IngestLib} {p : Pydantic} {lookbackHours : ℤ} {i : ℕ} {id : String}
  {source : DataSource} {cursor : CursorState} {d : Doc} {config state : Json}

theorem StoredAs.after_insert {alerts : Rows Alert} (h : StoredAs i id alerts) (rows : List Alert) :
    StoredAs i id (insertNew alerts rows) := by
  obtain ⟨a, ha, hstored⟩ := h
  exact ⟨a, Conflicts.prefix_insertAbsent.subset ha, hstored⟩

theorem StoredAs.of_inserted {rows : List Alert} (h : StoredAs i id rows) (alerts : Rows Alert) :
    StoredAs i id (insertNew alerts rows) := by
  obtain ⟨a, ha, hsource, hid⟩ := h
  have hany : (insertNew alerts rows).any (sameSourceAlert a) = true :=
    Conflicts.any_insertAbsent sameSourceAlert_refl ha
  obtain ⟨b, hb, hsame⟩ := List.any_eq_true.mp hany
  obtain ⟨hsource', hid'⟩ := sameSourceAlert_iff.mp hsame
  exact ⟨b, hb, hsource'.symm.trans hsource, hid'.symm.trans hid⟩

theorem validate_config_iff {parsed : WazuhIndexerConfig} :
    WazuhIndexerConfig.validate p config = some parsed ↔
      ∃ fields, config = .obj fields ∧ ((config.get? "indexer_url").bind Json.asStr?).isSome ∧
        readField config "initial_lookback_hours" 24 p.readInt = some parsed.initialLookbackHours ∧
        ∃ size, readField config "batch_size" 500 p.readInt = some size ∧
          (1 ≤ parsed.initialLookbackHours ∧ parsed.initialLookbackHours ≤ 168 ∧ 1 ≤ size ∧
            size ≤ 5000) ∧ parsed.batchSize = size.toNat := by
  cases config with
  | obj fields =>
    simp only [WazuhIndexerConfig.validate, Json.asObj?, Option.bind_eq_bind, Option.bind_some,
      Option.bind_eq_some_iff, Option.isSome_iff_exists]
    constructor
    · rintro ⟨url, hurl, lookback, hlookback, size, hsize, h⟩
      split at h
      · rename_i hbounds
        obtain rfl := Option.some.inj h
        exact ⟨fields, rfl, ⟨url, hurl⟩, hlookback, size, hsize, hbounds, rfl⟩
      · cases h
    · rintro ⟨-, -, ⟨url, hurl⟩, hlookback, size, hsize, hbounds, hbatch⟩
      refine ⟨url, hurl, _, hlookback, size, hsize, ?_⟩
      rw [if_pos hbounds, ← hbatch]
  | _ => simp [WazuhIndexerConfig.validate, Json.asObj?]

theorem batchSize_pos {parsed : WazuhIndexerConfig}
    (h : WazuhIndexerConfig.validate p config = some parsed) : 1 ≤ min 500 parsed.batchSize := by
  obtain ⟨-, -, -, -, size, -, hbounds, hbatch⟩ := validate_config_iff.mp h
  omega

theorem looksBack_lookBack {reset : Bool} (hhours : 1 ≤ lookbackHours ∧ lookbackHours ≤ 168)
    (h : (WazuhIndexerConfig.validate lib.pydantic source.config).isSome) :
    LooksBack lib lookbackHours (lookBack lookbackHours reset source).config := by
  obtain ⟨parsed, hparsed⟩ := Option.isSome_iff_exists.mp h
  obtain ⟨fields, hfields, hurl, -, size, hsize, hbounds, -⟩ := validate_config_iff.mp hparsed
  have hconfig : (lookBack lookbackHours reset source).config =
      .obj (setField fields "initial_lookback_hours" (.int lookbackHours)) := by
    simp only [lookBack, hfields]
  rw [hfields] at hurl hsize
  rw [hconfig]
  refine ⟨⟨lookbackHours, size.toNat⟩, validate_config_iff.mpr ⟨_, rfl, ?_, ?_, size, ?_, ?_, rfl⟩, rfl⟩
  · rw [Json.get?, lookup_setField_ne _ _ (by decide)]
    exact hurl
  · have hget : (Json.obj (setField fields "initial_lookback_hours" (.int lookbackHours))).get?
        "initial_lookback_hours" = some (.int lookbackHours) := lookup_setField_self _ _ _
    exact (CursorState.readField_of_get hget).trans (lib.pydantic.readInt_int _)
  · rw [← hsize, readField, readField, Json.get?, Json.get?, lookup_setField_ne _ _ (by decide)]
  · exact ⟨hhours.1, hhours.2, hbounds.2.2⟩

theorem looksBack_of_same {reset : Bool} (hints : ReadsEqualInts lib.pydantic)
    (h : (WazuhIndexerConfig.validate lib.pydantic source.config).isSome)
    (hsame : source.config.same (lookBack lookbackHours reset source).config = true) :
    LooksBack lib lookbackHours source.config := by
  obtain ⟨parsed, hparsed⟩ := Option.isSome_iff_exists.mp h
  refine ⟨parsed, hparsed, ?_⟩
  obtain ⟨fields, hfields, -, hlookback, -⟩ := validate_config_iff.mp hparsed
  simp only [lookBack, hfields] at hsame
  obtain ⟨value, hvalue⟩ : ∃ value, fields.lookup "initial_lookback_hours" = some value := by
    refine Option.ne_none_iff_exists'.mp fun hnone => ?_
    -- a reset would add the field
    have hany : (fields.any fun f => f.1 == "initial_lookback_hours") = false := by
      refine List.any_eq_false.mpr fun f hf hkey => ?_
      have := List.lookup_eq_none_iff.mp hnone f hf
      simp [beq_iff_eq.mp hkey] at this
    obtain ⟨fs, hfs, hlength⟩ := Json.same_obj hsame
    obtain rfl := Json.obj.inj hfs
    simp [setField, hany] at hlength
  obtain ⟨other, hother, hequal⟩ := Json.same_get hsame hvalue
  rw [lookup_setField_self] at hother
  obtain rfl := Option.some.inj hother
  have hget : (Json.obj fields).get? "initial_lookback_hours" = some value := hvalue
  rw [hfields, CursorState.readField_of_get hget] at hlookback
  exact Option.some.inj (hlookback.symm.trans (hints value lookbackHours hequal))

theorem readField_of_same {α : Type} {fs gs : List (String × Json)} {key : String}
    {default : α} {read : Json → Option α} {other : Json}
    (hsame : (Json.obj fs).same (.obj gs) = true) (hother : gs.lookup key = some other)
    (hread : ∀ value : Json, value.same other = true → read value = some default) :
    readField (.obj fs) key default read = some default := by
  unfold readField
  cases hvalue : (Json.obj fs).get? key with
  | none => rfl
  | some value =>
    obtain ⟨other', hother', hequal⟩ := Json.same_get hsame hvalue
    rw [hother] at hother'
    obtain rfl := Option.some.inj hother'
    exact hread value hequal

theorem load_of_same (hints : ReadsEqualInts p) (htotal : KeepsTotal p state)
    (hsame : state.same (resetCursor state) = true) :
    ∃ cursor, CursorState.load p state = some cursor ∧ cursor.lastOccurredAt = none ∧
      cursor.lastSortValues = none := by
  obtain ⟨fields, rfl, hlength⟩ := Json.same_obj hsame
  have hne : fields ≠ [] := by
    rintro rfl
    cases hlength
  have htruthy : (Json.obj fields).truthy = true := by simp [Json.truthy, hne]
  have hmode (value : Json) (h : value.same (.str "search_after") = true) :
      value.asStr? = some "search_after" := by rw [Json.same_str h]; rfl
  have hoccurred (value : Json) (h : value.same .null = true) :
      readOptional p.readTime value = some none := by rw [Json.same_null h]; rfl
  have hsort (value : Json) (h : value.same .null = true) :
      readOptional Json.asArr? value = some none := by rw [Json.same_null h]; rfl
  have hrun : readField (.obj fields) "last_successful_run_at" none (readOptional p.readTime) =
      some none := by
    unfold readField
    cases hvalue : (Json.obj fields).get? "last_successful_run_at" with
    | none => rfl
    | some value =>
      obtain ⟨_, hother, -⟩ := Json.same_get hsame hvalue
      cases hother
  obtain ⟨total, htotal⟩ : ∃ total, readField (.obj fields) "total_ingested" 0 p.readInt =
      some total := by
    obtain ⟨total, htotal⟩ := htotal
    rw [if_pos htruthy] at htotal
    unfold readField
    cases hvalue : (Json.obj fields).get? "total_ingested" with
    | none => exact ⟨0, rfl⟩
    | some value =>
      rw [hvalue] at htotal
      exact ⟨total, htotal⟩
  exact ⟨_, load_of_fresh hne (readField_of_same hsame rfl fun value h => hints value 1 h)
    (readField_of_same hsame rfl hmode) (readField_of_same hsame rfl hoccurred)
    (readField_of_same hsame rfl hsort) hrun htotal, rfl, rfl⟩

/-- From a cursor that starts over, all that the config looks back to is yet to come. -/
theorem yetToCome_of_fresh (hconfig : LooksBack lib lookbackHours source.config)
    (hload : CursorState.load lib.pydantic source.cursorState = some cursor)
    (hoccurred : cursor.lastOccurredAt = none) (hsort : cursor.lastSortValues = none) :
    YetToCome lib lookbackHours source d := by
  obtain ⟨parsed, hparsed, hhours⟩ := hconfig
  have hafter : readAfter lib.searchAfter cursor.searchAfter = some none := by
    rw [CursorState.searchAfter, hsort]
    rfl
  refine ⟨parsed, cursor, none, hparsed, hload, hafter, fun clock hinside => ?_⟩
  have hstart : windowStart parsed.initialLookbackHours clock cursor ≤ d.timestamp := by
    rw [windowStart, hoccurred, hhours]
    exact hinside
  simp [Paging.Window.shows, windowOf, hstart]

theorem yetToCome_of_reset (hconfig : LooksBack lib lookbackHours source.config)
    (htotal : KeepsTotal lib.pydantic state) (hcursor : source.cursorState = resetCursor state) :
    YetToCome lib lookbackHours source d := by
  obtain ⟨n, hn⟩ := htotal
  exact yetToCome_of_fresh hconfig ((congrArg _ hcursor).trans (load_freshCursor hn)) rfl rfl

theorem keepsTotal_dump : KeepsTotal p (cursor.dump p) := ⟨cursor.totalIngested, p.readInt_int _⟩

theorem keepsTotal_reset (h : KeepsTotal p state) : KeepsTotal p (resetCursor state) := h

section

variable (lib) (i) (source) (cursor) (w : WazuhBatch) (d) (id)

/--
A search that has the document in its window does not go past it. If its last hit is before the
document, the time of that hit is no later and survives being stored, and otherwise the hits with
the document's `_id` can be mapped.
-/
def goesNoFurther : Bool :=
  (WazuhIndexerConfig.validate lib.pydantic source.config).all fun parsed =>
    let body := buildQuery parsed.initialLookbackHours w.clock cursor (min 500 parsed.batchSize)
    (readAfter lib.searchAfter body.searchAfter).all fun k =>
      !Paging.Window.shows Doc.timestamp Doc.key ⟨body.gte, k⟩ d ||
        (search lib.searchAfter w.index body).all fun hits => hits.getLast?.all fun last =>
          if last.key < d.key then
            (parseTimestamp lib.rt w.clock.parsedAt last.source).all fun t =>
              decide (t ≤ d.timestamp) && decide (lib.pydantic.Keeps t) &&
                decide (lib.pydantic.Keeps w.clock.finishedAt)
          else
            (mapItems (w.env lib) i source.name (hits.map normalizeHit)).all fun m =>
              docId lib.rt m.1 != some id || m.2.isOk

end

variable {w : WazuhBatch} {pull : PullResult} {rows : List Alert}

theorem pull_of_shown {parsed : WazuhIndexerConfig} {k : Option DocKey}
    (hparsed : WazuhIndexerConfig.validate lib.pydantic source.config = some parsed)
    (hk : readAfter lib.searchAfter cursor.searchAfter = some k) (hheld : d ∈ w.index)
    (hshown : (windowOf parsed.initialLookbackHours w.clock cursor k).shows Doc.timestamp Doc.key d =
      true)
    (hpull : w.pull lib source.config cursor = .ok pull) :
    ∃ hits last t, search lib.searchAfter w.index
        (buildQuery parsed.initialLookbackHours w.clock cursor (min 500 parsed.batchSize)) =
          some hits ∧ hits.getLast? = some last ∧
      parseTimestamp lib.rt w.clock.parsedAt last.source = some t ∧
      pull.items = hits.map normalizeHit ∧
      pull.nextCursor = { cursor.moved last t with
        lastSuccessfulRunAt := some w.clock.finishedAt } ∧
      (last.key < d.key ∨ ∃ hit ∈ hits, hit.key = d.key) := by
  have hmem : d ∈ Paging.shown Doc.timestamp Doc.key (ordered w.index)
      (windowOf parsed.initialLookbackHours w.clock cursor k) :=
    List.mem_filter.mpr ⟨(ordered_perm w.index).mem_iff.mpr hheld, hshown⟩
  obtain ⟨last, hlast, hkey⟩ := Paging.last_lt_or_mem (ordered_sorted w.index)
    (batchSize_pos hparsed) hmem
  generalize hpage : (Paging.shown Doc.timestamp Doc.key (ordered w.index)
    (windowOf parsed.initialLookbackHours w.clock cursor k)).take (min 500 parsed.batchSize) = page
    at hlast hkey
  have hsearch : search lib.searchAfter w.index
      (buildQuery parsed.initialLookbackHours w.clock cursor (min 500 parsed.batchSize)) =
        some page := by
    rw [search, buildQuery, hk, ← hpage]
    rfl
  have hfound : searchAlerts lib.rt lib.searchAfter parsed.initialLookbackHours w.index w.clock
      cursor (min 500 parsed.batchSize) = (advance lib.rt w.clock cursor page).map fun next => {
        items := page.map normalizeHit
        nextCursor := { next with lastSuccessfulRunAt := some w.clock.finishedAt }
        hasMore := decide (min 500 parsed.batchSize ≤ page.length)
        fetched := page.length } :=
    @searchAlerts_of_page lib.rt lib.searchAfter parsed.initialLookbackHours w.index
      (fun _ => w.clock) _ cursor k page 0 hk hpage
  unfold WazuhBatch.pull at hpull
  rw [hparsed] at hpull
  cases hfault : w.pullFault with
  | some e => rw [hfault] at hpull; cases hpull
  | none =>
    simp only [hfault, hfound, advance, hlast] at hpull
    cases ht : parseTimestamp lib.rt w.clock.parsedAt last.source with
    | none => rw [ht] at hpull; cases hpull
    | some t =>
      rw [ht] at hpull
      obtain rfl := Except.ok.inj hpull
      exact ⟨page, last, t, hsearch, hlast, ht, rfl, rfl, hkey⟩

theorem docId_normalizeHit {rt : Runtime} {hit : Doc} (h : hit.id = d.id) :
    docId rt (normalizeHit hit) = docId rt (normalizeHit d) := by
  rw [docId, docId, lookup_id_normalizeHit, lookup_id_normalizeHit, h]

theorem storedAs_of_mapped {items : List Document} {name : String} {raw : Document}
    (hid : docId lib.rt raw = some id) (hmem : raw ∈ items)
    (hmaps : ∀ m ∈ mapItems (w.env lib) i name items, docId lib.rt m.1 = some id → m.2.isOk = true)
    (hrows : (mappedItems (mapItems (w.env lib) i name items)).mapM
      (fun m => rowOf lib (w.env lib) i m.2) = .ok rows) : StoredAs i id rows := by
  obtain ⟨position, hraw⟩ := List.mem_iff_getElem?.mp hmem
  have hitem : (raw, (w.env lib).map position i name raw) ∈ mapItems (w.env lib) i name items := by
    refine List.mem_of_getElem? (i := position) ?_
    rw [mapItems, List.getElem?_mapIdx, hraw, Option.map_some]
  cases hmap : (w.env lib).map position i name raw with
  | error e =>
    rw [hmap] at hitem
    cases hmaps _ hitem hid
  | ok n =>
    have hmapped := mem_mappedItems hraw hmap
    obtain ⟨row, hrow, hrowOf⟩ := Tx.exists_of_mapM_ok hrows hmapped
    obtain ⟨hsource, hstored⟩ := rowOf_ok hrowOf
    exact ⟨row, hrow, hsource, hstored.trans ((mappedItems_id hmapped).2 id hid)⟩

theorem batch_settles (hid : docId lib.rt (normalizeHit d) = some id) (hheld : d ∈ w.index)
    (hinside : Inside lookbackHours w.clock d)
    (hload : CursorState.load lib.pydantic source.cursorState = some cursor)
    (hlimit : goesNoFurther lib i id source cursor d w = true)
    (hpull : w.pull lib source.config cursor = .ok pull)
    (hrows : (mappedItems (mapItems (w.env lib) i source.name pull.items)).mapM
      (fun m => rowOf lib (w.env lib) i m.2) = .ok rows)
    (hcome : YetToCome lib lookbackHours source d) :
    StoredAs i id rows ∨ ∀ inserted, YetToCome lib lookbackHours
      { source with cursorState := (nextCursor pull cursor inserted).dump lib.pydantic } d := by
  obtain ⟨parsed, cursor', k, hparsed, hload', hk, hshows⟩ := hcome
  obtain rfl := Option.some.inj (hload'.symm.trans hload)
  have hshown := hshows w.clock hinside
  obtain ⟨hits, last, t, hsearch, hlast, ht, hitems, hnext, hkey⟩ :=
    pull_of_shown hparsed hk hheld hshown hpull
  have hwindow : Paging.Window.shows Doc.timestamp Doc.key
      ⟨(buildQuery parsed.initialLookbackHours w.clock cursor' (min 500 parsed.batchSize)).gte, k⟩
      d = true := hshown
  have hafter : readAfter lib.searchAfter (buildQuery parsed.initialLookbackHours w.clock cursor'
      (min 500 parsed.batchSize)).searchAfter = some k := hk
  simp only [goesNoFurther, hparsed, hafter, hwindow, hsearch, hlast, ht, Option.all_some,
    Bool.not_true, Bool.false_or] at hlimit
  split at hlimit
  · rename_i hlt
    simp only [Bool.and_eq_true, decide_eq_true_eq] at hlimit
    obtain ⟨⟨htime, hkept⟩, hfinished⟩ := hlimit
    refine .inr fun inserted => ⟨parsed, nextCursor pull cursor' inserted, some last.key, hparsed,
      CursorState.load_dump ?_ ?_, ?_, fun clock _ => ?_⟩
    · rw [nextCursor, hnext]
      rintro _ ⟨⟩
      exact hkept
    · rw [nextCursor, hnext]
      rintro _ ⟨⟩
      exact hfinished
    · rw [nextCursor, hnext]
      exact readAfter_moved cursor' last t w.clock.finishedAt
    · rw [nextCursor, hnext]
      simp [Paging.Window.shows, windowOf, windowStart, CursorState.moved, htime, hlt]
  · rename_i hnlt
    obtain ⟨hit, hhit, hkey⟩ := hkey.resolve_left hnlt
    have hsame : hit.id = d.id := (Prod.mk.inj (toLex.injective hkey)).2
    refine .inl (storedAs_of_mapped ((docId_normalizeHit hsame).trans hid) ?_ ?_ hrows)
    · rw [hitems]
      exact List.mem_map_of_mem hhit
    · intro m hm hmid
      rw [hitems] at hm
      have := List.all_eq_true.mp hlimit m hm
      simpa [hmid] using this

end Ingest

end Minsight

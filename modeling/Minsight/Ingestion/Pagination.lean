import Minsight.Ingestion.Wazuh

/-! # Completeness of repeated searches

Searching until there is no more returns all documents of the first window exactly when each page
ends with a document whose time can be read, is not later than the next document's, and whose key
comes before the next one's.
-/

namespace Minsight

section

variable {rt : Runtime} {after : SearchAfter} {hoursBack : ℤ} {p : Pydantic} {index : List Doc}
  {clock : ℕ → PullClock} {batchSize : ℕ}

/-- The time the client takes from the last hit of a search. -/
def lastTime (rt : Runtime) (clock : ℕ → PullClock) (n : ℕ) (d : Doc) : Option Time :=
  parseTimestamp rt (clock n).parsedAt d.source

/-- Every time that enters a cursor is read back as it was written. -/
structure KeepsTimes (rt : Runtime) (p : Pydantic) (index : List Doc) (clock : ℕ → PullClock) :
    Prop where
  finished : ∀ n, p.Keeps (clock n).finishedAt
  parsed : ∀ n, ∀ d ∈ index, ∀ t, lastTime rt clock n d = some t → p.Keeps t

/-- What the client asks for with a cursor whose sort values the index can read. -/
def windowOf (hoursBack : ℤ) (clock : PullClock) (cursor : CursorState) (k : Option DocKey) :
    Paging.Window Time DocKey :=
  ⟨windowStart hoursBack clock cursor, k⟩

theorem readAfter_moved (cursor : CursorState) (last : Doc) (t finishedAt : Time) :
    readAfter after
      { cursor.moved last t with lastSuccessfulRunAt := some finishedAt }.searchAfter =
        some (some last.key) := by
  have hsort : CursorState.searchAfter
      { cursor.moved last t with lastSuccessfulRunAt := some finishedAt } = some last.sort := rfl
  rw [hsort, readAfter, after.read_sort, Option.map_some]

theorem load_moved (keeps : KeepsTimes rt p index clock) (cursor : CursorState) {last : Doc}
    {n : ℕ} {t : Time} (hmem : last ∈ index) (htime : lastTime rt clock n last = some t) :
    CursorState.load p (CursorState.dump p
      { cursor.moved last t with lastSuccessfulRunAt := some (clock n).finishedAt }) =
        some { cursor.moved last t with lastSuccessfulRunAt := some (clock n).finishedAt } := by
  refine CursorState.load_dump (fun s hs => ?_) (fun s hs => ?_)
  · rw [← Option.some.inj hs]
    exact keeps.parsed n last hmem t htime
  · rw [← Option.some.inj hs]
    exact keeps.finished n

theorem searchAlerts_of_page {cursor : CursorState} {k : Option DocKey} {page : List Doc} {n : ℕ}
    (hk : readAfter after cursor.searchAfter = some k)
    (hpage : (Paging.shown Doc.timestamp Doc.key (ordered index)
      (windowOf hoursBack (clock n) cursor k)).take batchSize = page) :
    searchAlerts rt after hoursBack index (clock n) cursor batchSize =
      (advance rt (clock n) cursor page).map fun next => {
        items := page.map normalizeHit
        nextCursor := { next with lastSuccessfulRunAt := some (clock n).finishedAt }
        hasMore := decide (batchSize ≤ page.length)
        fetched := page.length } := by
  have hsearch : search after index (buildQuery hoursBack (clock n) cursor batchSize) = some page := by
    rw [search, buildQuery, hk, ← hpage]
    rfl
  simp only [searchAlerts, hsearch, List.length_map, Option.bind_eq_bind, Option.bind_some]
  cases advance rt (clock n) cursor page <;> rfl

theorem searchAll_eq_pages (hb : 1 ≤ batchSize) (keeps : KeepsTimes rt p index clock) :
    ∀ {fuel n : ℕ} {cursor : CursorState} {k : Option DocKey},
      readAfter after cursor.searchAfter = some k →
      searchAll rt after hoursBack p index clock batchSize fuel n cursor =
        (Paging.pages Doc.timestamp Doc.key (ordered index) batchSize (lastTime rt clock) fuel n
          (windowOf hoursBack (clock n) cursor k)).map (List.map normalizeHit)
  | 0, _, _, _, _ => rfl
  | fuel + 1, n, cursor, k, hk => by
    rw [searchAll, searchAlerts_of_page hk rfl]
    cases hlast : ((Paging.shown Doc.timestamp Doc.key (ordered index)
        (windowOf hoursBack (clock n) cursor k)).take batchSize).getLast? with
    | none =>
      have hempty := List.getLast?_eq_none_iff.mp hlast
      have hb' : batchSize ≠ 0 := by omega
      rw [Paging.pages_done hlast, hempty]
      simp [advance, hb']
    | some last =>
      have hmem : last ∈ index := by
        have := List.mem_of_mem_take (List.mem_of_getLast? hlast)
        exact (ordered_perm index).subset (List.mem_of_mem_filter this)
      cases htime : lastTime rt clock n last with
      | none =>
        rw [Paging.pages_unread hlast htime]
        rw [lastTime] at htime
        simp [advance, hlast, htime]
      | some t =>
        have hadvance : advance rt (clock n) cursor ((Paging.shown Doc.timestamp Doc.key
            (ordered index) (windowOf hoursBack (clock n) cursor k)).take batchSize) =
            some (cursor.moved last t) := by
          rw [lastTime] at htime
          simp only [advance, hlast, htime, Option.map_some]
        rw [hadvance]
        rcases Nat.lt_or_ge ((Paging.shown Doc.timestamp Doc.key (ordered index)
            (windowOf hoursBack (clock n) cursor k)).take batchSize).length batchSize with hb' | hb'
        · rw [Paging.pages_short hlast htime hb']
          have hmore := decide_eq_false (Nat.not_le.mpr hb')
          simp only [Option.map_some, Option.bind_eq_bind, Option.bind_some, hmore,
            Bool.false_eq_true, if_false]
        · have hmore := decide_eq_true hb'
          rw [Paging.pages_full hlast htime hb']
          simp only [Option.map_some, Option.bind_eq_bind, Option.bind_some, hmore, if_true,
            load_moved keeps cursor hmem htime]
          rw [searchAll_eq_pages hb keeps (readAfter_moved cursor last t _)]
          have hwindow : windowOf hoursBack (clock (n + 1))
              { cursor.moved last t with lastSuccessfulRunAt := some (clock n).finishedAt }
              (some last.key) = ⟨t, some last.key⟩ := rfl
          rw [hwindow]
          cases Paging.pages Doc.timestamp Doc.key (ordered index) batchSize (lastTime rt clock)
              fuel (n + 1) ⟨t, some last.key⟩ with
          | none => rfl
          | some rest => simp

/-- What is to be pulled: the documents from the start of the first window on, in order. -/
def pending (hoursBack : ℤ) (index : List Doc) (clock : ℕ → PullClock) (cursor : CursorState) :
    List Doc :=
  (ordered index).filter fun d => decide (windowStart hoursBack (clock 0) cursor ≤ d.timestamp)

/-- Every document from the start of the first window on is returned once, in order. -/
def PullsAll (rt : Runtime) (after : SearchAfter) (hoursBack : ℤ) (p : Pydantic) (index : List Doc)
    (clock : ℕ → PullClock) (batchSize fuel : ℕ) (cursor : CursorState) : Prop :=
  ∃ docs : List Doc, searchAll rt after hoursBack p index clock batchSize fuel 0 cursor =
      some (docs.map normalizeHit) ∧
    docs.Perm (index.filter fun d => windowStart hoursBack (clock 0) cursor ≤ d.timestamp) ∧
    docs.Pairwise (·.key ≤ ·.key)

/-- The first search starts before every document of its window. -/
def SkipsNone (after : SearchAfter) (hoursBack : ℤ) (index : List Doc) (clock : ℕ → PullClock)
    (cursor : CursorState) : Prop :=
  ∃ k, readAfter after cursor.searchAfter = some k ∧
    ∀ d ∈ index, windowStart hoursBack (clock 0) cursor ≤ d.timestamp →
      ∀ key, k = some key → key < d.key

variable {cursor : CursorState} {k : Option DocKey} {fuel : ℕ}

theorem pending_perm :
    (pending hoursBack index clock cursor).Perm
      (index.filter fun d => windowStart hoursBack (clock 0) cursor ≤ d.timestamp) :=
  (ordered_perm index).filter _

theorem pending_sorted : (pending hoursBack index clock cursor).Pairwise (·.key ≤ ·.key) :=
  (ordered_sorted index).sublist List.filter_sublist

theorem shown_eq_filter :
    Paging.shown Doc.timestamp Doc.key (ordered index) (windowOf hoursBack (clock 0) cursor k) =
      (pending hoursBack index clock cursor).filter fun d => k.all fun key => decide (key < d.key) := by
  rw [pending, List.filter_filter]
  exact List.filter_congr fun d _ => Bool.and_comm _ _

theorem shown_eq_pending_iff :
    Paging.shown Doc.timestamp Doc.key (ordered index) (windowOf hoursBack (clock 0) cursor k) =
        pending hoursBack index clock cursor ↔
      ∀ d ∈ index, windowStart hoursBack (clock 0) cursor ≤ d.timestamp →
        ∀ key, k = some key → key < d.key := by
  rw [shown_eq_filter, List.filter_eq_self]
  simp only [pending, List.mem_filter, (ordered_perm index).mem_iff, decide_eq_true_eq,
    Option.all_eq_true, and_imp]

theorem searchAll_unreadable (h : readAfter after cursor.searchAfter = none) :
    searchAll rt after hoursBack p index clock batchSize fuel 0 cursor = none := by
  cases fuel with
  | zero => rfl
  | succ fuel =>
    have hsearch : search after index (buildQuery hoursBack (clock 0) cursor batchSize) = none := by
      rw [search, buildQuery, h, Option.map_none]
    simp only [searchAll, searchAlerts, hsearch, Option.bind_eq_bind, Option.bind_none]

/-- Pulling until there is no more is complete exactly when the pages are chained. -/
theorem pulls_all_iff (hb : 1 ≤ batchSize) (hfuel : index.length < fuel)
    (keeps : KeepsTimes rt p index clock) :
    PullsAll rt after hoursBack p index clock batchSize fuel cursor ↔
      SkipsNone after hoursBack index clock cursor ∧
      Paging.Chained Doc.timestamp Doc.key batchSize (lastTime rt clock) 0
        (pending hoursBack index clock cursor) := by
  have hlength : ∀ k, (Paging.shown Doc.timestamp Doc.key (ordered index)
      (windowOf hoursBack (clock 0) cursor k)).length < fuel := fun k =>
    lt_of_le_of_lt (List.length_filter_le _ _) ((ordered_perm index).length_eq ▸ hfuel)
  have hpages : ∀ k, Paging.pages Doc.timestamp Doc.key (ordered index) batchSize
      (lastTime rt clock) fuel 0 (windowOf hoursBack (clock 0) cursor k) =
        some (Paging.shown Doc.timestamp Doc.key (ordered index)
          (windowOf hoursBack (clock 0) cursor k)) ↔ _ := fun k =>
    Paging.pages_eq_shown_iff (ordered_sorted index) (fun _ _ => Doc.timestamp_le) hb (hlength k)
  constructor
  · rintro ⟨docs, hdocs, hperm, -⟩
    cases hk : readAfter after cursor.searchAfter with
    | none => simp [searchAll_unreadable hk] at hdocs
    | some k =>
      rw [searchAll_eq_pages hb keeps hk] at hdocs
      obtain ⟨items, hitems, hmap⟩ := Option.map_eq_some_iff.mp hdocs
      have hsub := Paging.pages_sublist (ordered_sorted index) (fun _ _ => Doc.timestamp_le) hitems
      have hshown : (Paging.shown Doc.timestamp Doc.key (ordered index)
          (windowOf hoursBack (clock 0) cursor k)).Sublist (pending hoursBack index clock cursor) := by
        rw [shown_eq_filter]
        exact List.filter_sublist
      have hcount : (pending hoursBack index clock cursor).length ≤ items.length := by
        have := congrArg List.length hmap
        rw [List.length_map, List.length_map] at this
        rw [this, hperm.length_eq, pending_perm.length_eq]
      have hall := (hsub.trans hshown).eq_of_length_le hcount
      have hwhole := hshown.eq_of_length_le (hcount.trans hsub.length_le)
      refine ⟨⟨k, hk, shown_eq_pending_iff.mp hwhole⟩, ?_⟩
      rw [← hwhole]
      exact (hpages k).mp (by rw [hitems, hall, hwhole])
  · rintro ⟨⟨k, hk, hskip⟩, hchained⟩
    have hwhole := shown_eq_pending_iff.mpr hskip
    rw [← hwhole] at hchained
    refine ⟨pending hoursBack index clock cursor, ?_, pending_perm, pending_sorted⟩
    rw [searchAll_eq_pages hb keeps hk, (hpages k).mpr hchained, hwhole, Option.map_some]

end

def isoIndex : List Doc :=
  [sampleDoc "a1" 0 "2026-01-01T00:00:00.000+0000", sampleDoc "a2" 60 "2026-01-01T01:01:00+01:00",
    sampleDoc "a3" 60 "2026-01-01T00:01:00Z"]

theorem isoIndex_times {d : Doc} (h : d ∈ isoIndex) (n : ℕ) :
    lastTime (sampleRuntime .free []) (fun _ => sampleClock) n d = some d.timestamp := by
  simp only [isoIndex, List.mem_cons, List.not_mem_nil, or_false] at h
  change parseTimestamp (sampleRuntime .free []) sampleClock.parsedAt d.source = some d.timestamp
  rcases h with rfl | rfl | rfl <;> decide +kernel

/-- Three documents whose timestamps are ISO 8601, two at a time. -/
theorem pulls_all_iso :
    PullsAll (sampleRuntime .free []) sampleSearchAfter 24 samplePydantic isoIndex
      (fun _ => sampleClock) 2 4 {} := by
  have keeps : KeepsTimes (sampleRuntime .free []) samplePydantic isoIndex fun _ => sampleClock := by
    refine ⟨fun _ => ?_, fun n d hd t ht => ?_⟩
    · unfold Pydantic.Keeps
      decide +kernel
    · rw [isoIndex_times hd, Option.some.injEq] at ht
      subst ht
      simp only [isoIndex, List.mem_cons, List.not_mem_nil, or_false] at hd
      unfold Pydantic.Keeps
      rcases hd with rfl | rfl | rfl <;> decide +kernel
  have hpending : pending 24 isoIndex (fun _ => sampleClock) {} = isoIndex := rfl
  refine (pulls_all_iff (by decide) (by decide) keeps).mpr ⟨⟨none, rfl, by simp⟩, ?_⟩
  rw [hpending]
  refine Paging.chained_iff.mpr ⟨fun last hlast => ?_, Paging.chained_iff.mpr ⟨fun last hlast => ?_, ?_⟩⟩
  · obtain rfl := Option.some.inj hlast
    refine ⟨_, isoIndex_times (by simp [isoIndex]) 0, fun d hd => ?_⟩
    obtain rfl := Option.some.inj hd
    decide +kernel
  · obtain rfl := Option.some.inj hlast
    exact ⟨_, isoIndex_times (by simp [isoIndex]) 1, fun d hd => absurd hd (by simp [isoIndex])⟩
  · exact Paging.chained_nil

/-- Timestamps in milliseconds since the epoch, which the index takes and the client cannot read. -/
def epochIndex : List Doc :=
  [sampleDoc "a1" 0 "1767225600000", sampleDoc "a2" 60 "1767225660000"]

/-- The time of the first document is taken to be now, so the second one is never pulled. -/
theorem epoch_timestamps_are_lost :
    ¬ PullsAll (sampleRuntime .free []) sampleSearchAfter 24 samplePydantic epochIndex
      (fun _ => sampleClock) 1 3 {} := by
  rintro ⟨docs, hdocs, hperm, -⟩
  have hone : (searchAll (sampleRuntime .free []) sampleSearchAfter 24 samplePydantic epochIndex
      (fun _ => sampleClock) 1 3 0 {}).map List.length = some 1 := by decide +kernel
  have htwo : (epochIndex.filter fun d =>
      windowStart 24 sampleClock {} ≤ d.timestamp).length = 2 := by decide +kernel
  rw [hdocs, Option.map_some, List.length_map, hperm.length_eq, htwo] at hone
  exact absurd hone (by decide)

end Minsight

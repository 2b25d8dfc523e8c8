import Minsight.Ingestion.Confinement

/-! # Sources that share a session

`run_all_active` catches what the run of a source raises and goes on with the session as it is.
The other sources are served as if the failing ones were not there exactly as long as no statement
of a failing run has failed.
-/

namespace Minsight

open Tx

namespace Ingest

/-- What the runs of `run_all_active` share. -/
structure Round where
  lib : IngestLib
  registered : List String
  maxBatches : ℕ
  envs : ℕ → RunEnv
  db : IngestDb

namespace Round

section

variable (R : Round)

/-- The active sources, in the order of the database. -/
def sources (tie : ℕ → ℕ) : List (ℕ × DataSource) :=
  (R.db.dataSources.select fun _ source => source.isActive).insertionSort fun x y =>
    tie x.1 ≤ tie y.1

def hasAdapter (x : ℕ × DataSource) : Bool := R.registered.contains x.2.adapterType

def run (x : ℕ × DataSource) : Ingest IngestRunResult :=
  runForSource R.lib R.registered x.1 R.maxBatches true (R.envs x.1)

def all (xs : List (ℕ × DataSource)) : Ingest (List IngestRunResult) :=
  runAll R.lib R.registered R.maxBatches R.envs xs

def alone (x : ℕ × DataSource) : Except Exn IngestRunResult × IngestSession :=
  exec (R.run x) (.opened R.db)

def fails (x : ℕ × DataSource) : Bool := R.hasAdapter x && (R.alone x).1.toOption.isNone

def spoils (x : ℕ × DataSource) : Bool := R.hasAdapter x && (R.alone x).2.failed

def expires (x : ℕ × DataSource) : Bool := (R.alone x).2.expired && R.lib.rt.expiredReadRaises

/-- After the first run with a failed statement, the source has a name and no other source runs. -/
def Harmless : List (ℕ × DataSource) → Prop
  | [] => True
  | x :: xs =>
    if R.spoils x then R.expires x = false ∧ ∀ y ∈ xs, R.hasAdapter y = true → R.fails y = true
    else Harmless xs

/-- The outcomes of the sources that do not fail. -/
def others (xs : List (ℕ × DataSource)) (results : List IngestRunResult) : List IngestRunResult :=
  ((xs.zip results).filter fun z => !R.fails z.1).map Prod.snd

/--
There is an outcome for every source, and the others have the outcomes and the rows they have when
the failing sources are not there.
-/
def Isolates (tie : ℕ → ℕ) : Prop :=
  ∃ results s', exec (runAllActive R.lib R.registered R.maxBatches tie R.envs) (.opened R.db) =
      (.ok results, s') ∧
    results.map (·.dataSourceId) = (R.sources tie).map Prod.fst ∧
    ∃ results₀ s₀, exec (R.all ((R.sources tie).filter fun x => !R.fails x)) (.opened R.db) =
        (.ok results₀, s₀) ∧
      R.others (R.sources tie) results = results₀ ∧
      ∀ x ∈ R.sources tie, R.fails x = false →
        viewOf x.1 s'.committed = viewOf x.1 s₀.committed

/-- The outcome of a source whose run has raised. -/
def failed (x : ℕ × DataSource) (e : Exn) : IngestRunResult where
  dataSourceId := x.1
  errors := [(x.2.name, e)]

def skipped (x : ℕ × DataSource) : IngestRunResult where
  dataSourceId := x.1
  skippedNoAdapter := true

def expected (x : ℕ × DataSource) : IngestRunResult :=
  if R.hasAdapter x then
    match (R.alone x).1 with
    | .ok result => result
    | .error e => failed x e
  else skipped x

def expectedView (x : ℕ × DataSource) : Option DataSource × Rows Alert :=
  viewOf x.1 (if R.hasAdapter x then (R.alone x).2.committed else R.db)

def stuck (x : ℕ × DataSource) : IngestRunResult :=
  if R.hasAdapter x then failed x .pendingRollback else skipped x

end

variable {R : Round} {x : ℕ × DataSource} {xs : List (ℕ × DataSource)} {s s' : IngestSession}
  {r : IngestRunResult} {results : List IngestRunResult} {e : Exn}

theorem all_cons :
    R.all (x :: xs) = visit R.lib R.registered R.maxBatches R.envs x >>= fun result =>
      R.all xs >>= fun results => pure (result :: results) := rfl

theorem exec_visit_skipped (h : R.hasAdapter x = false) :
    exec (visit R.lib R.registered R.maxBatches R.envs x) s = (.ok (skipped x), s) := by
  have h' : R.registered.contains x.2.adapterType = false := h
  rw [visit, h']
  rfl

theorem exec_visit_ok (h : R.hasAdapter x = true) (hrun : exec (R.run x) s = (.ok r, s')) :
    exec (visit R.lib R.registered R.maxBatches R.envs x) s = (.ok r, s') := by
  have h' : R.registered.contains x.2.adapterType = true := h
  rw [run] at hrun
  rw [visit, h', if_pos rfl, exec_bind_attempt, hrun]
  rfl

theorem exec_visit_error (h : R.hasAdapter x = true) (hrun : exec (R.run x) s = (.error e, s')) :
    exec (visit R.lib R.registered R.maxBatches R.envs x) s =
      if s'.expired && R.lib.rt.expiredReadRaises then (.error .missingGreenlet, s')
      else (.ok (failed x e), s') := by
  have h' : R.registered.contains x.2.adapterType = true := h
  rw [run] at hrun
  rw [visit, h', if_pos rfl, exec_bind_attempt, hrun]
  dsimp only
  rw [exec_bind_read]
  split <;> rfl

theorem exec_all_stuck (hfailed : s.failed = true)
    (hname : (s.expired && R.lib.rt.expiredReadRaises) = false) :
    exec (R.all xs) s = (.ok (xs.map R.stuck), s) := by
  induction xs with
  | nil => rfl
  | cons x xs ih =>
    have hvisit : exec (visit R.lib R.registered R.maxBatches R.envs x) s = (.ok (R.stuck x), s) := by
      cases hadapter : R.hasAdapter x with
      | false => rw [exec_visit_skipped hadapter, stuck, hadapter]; rfl
      | true =>
        have hrun : exec (R.run x) s = (.error .pendingRollback, s) := by
          refine exec_bind_of_error ?_
          rw [getSource, statement, exec_attemptStatement, if_pos hfailed]
        rw [exec_visit_error hadapter hrun, hname, stuck, hadapter]
        rfl
    rw [all_cons, exec_bind_of_ok hvisit, exec_bind_of_ok ih]
    rfl

/-- The session is as if it had just been opened, for the sources still to come. -/
structure Ready (R : Round) (xs : List (ℕ × DataSource)) (s : IngestSession) : Prop where
  clean : s.failed = false
  loaded : s.expired = false
  settled : s.db = s.committed
  views : ∀ x ∈ xs, viewOf x.1 s.committed = viewOf x.1 R.db

theorem Ready.alike (h : Ready R (x :: xs) s) : Alike x.1 s (.opened R.db) :=
  have hview := h.views x List.mem_cons_self
  ⟨h.clean, h.loaded, by rw [h.settled]; exact hview, hview⟩

/-- The next source has the outcome it has by itself, and the others keep their rows. -/
theorem Ready.run (h : Ready R (x :: xs) s) :
    (exec (R.run x) s).1 = (R.alone x).1 ∧ Alike x.1 (exec (R.run x) s).2 (R.alone x).2 ∧
      Settled (exec (R.run x) s).2 ∧
      ∀ j, j ≠ x.1 → viewOf j (exec (R.run x) s).2.committed = viewOf j s.committed := by
  have hconfined : Confined x.1 (R.run x) := confined_runForSource
  obtain ⟨houtcome, halike⟩ := hconfined.agrees _ _ h.alike
  refine ⟨houtcome, halike, runForSource_settles s fun _ => ⟨h.settled, h.loaded⟩, fun j hj => ?_⟩
  exact (hconfined.others s (fun k _ => by rw [h.settled]) j hj).2

theorem Ready.next (h : Ready R (x :: xs) s) (hn : ((x :: xs).map Prod.fst).Nodup)
    (hclean : (exec (R.run x) s).2.failed = false) : Ready R xs (exec (R.run x) s).2 := by
  obtain ⟨-, -, hsettled, hviews⟩ := h.run
  obtain ⟨hdb, hloaded⟩ := hsettled hclean
  refine ⟨hclean, hloaded, hdb, fun y hy => ?_⟩
  have hne : y.1 ≠ x.1 := fun heq =>
    (List.nodup_cons.mp hn).1 (heq ▸ List.mem_map_of_mem hy)
  rw [hviews y.1 hne, h.views y (List.mem_cons_of_mem x hy)]

theorem Ready.tail (h : Ready R (x :: xs) s) : Ready R xs s :=
  ⟨h.clean, h.loaded, h.settled, fun y hy => h.views y (List.mem_cons_of_mem x hy)⟩

theorem fails_of_spoils (h : R.spoils x = true) : R.fails x = true := by
  obtain ⟨hadapter, hfailed⟩ := Bool.and_eq_true_iff.mp h
  refine Bool.and_eq_true_iff.mpr ⟨hadapter, ?_⟩
  rcases halone : R.alone x with ⟨e | r, s'⟩
  · rfl
  · have hclean : s'.failed = false := (runForSource_ok halone).1
    rw [halone] at hfailed
    exact absurd (hfailed.symm.trans hclean) (by decide)

/-- The sources that do not fail have the outcomes they have by themselves. -/
def Follows (R : Round) (xs : List (ℕ × DataSource)) (results : List IngestRunResult) : Prop :=
  R.others xs results = (xs.filter fun x => !R.fails x).map R.expected

theorem follows_cons :
    Follows R (x :: xs) (r :: results) ↔
      (R.fails x = false → r = R.expected x) ∧ Follows R xs results := by
  cases h : R.fails x with
  | true => simp [Follows, others, h]
  | false => simp [Follows, others, h]

theorem follows_map {g : ℕ × DataSource → IngestRunResult} :
    Follows R xs (xs.map g) ↔ ∀ x ∈ xs, R.fails x = false → g x = R.expected x := by
  induction xs with
  | nil => simp [Follows, others]
  | cons x xs ih => rw [List.map_cons, follows_cons, ih, List.forall_mem_cons]

theorem expected_skipped (h : R.hasAdapter x = false) : R.expected x = skipped x := by
  rw [expected, h]
  rfl

theorem expected_ok (h : R.hasAdapter x = true) (halone : (R.alone x).1 = .ok r) :
    R.expected x = r := by
  rw [expected, h, halone]
  rfl

theorem fails_error (h : R.hasAdapter x = true) (halone : (R.alone x).1 = .error e) :
    R.fails x = true := by
  rw [fails, h, halone]
  rfl

/-- A source that runs by itself does not do so on a session that takes no statement. -/
theorem stuck_ne_expected (h : R.hasAdapter x = true) (hruns : R.fails x = false) :
    R.stuck x ≠ R.expected x := by
  intro heq
  rcases halone : R.alone x with ⟨e | r, s'⟩
  · rw [fails_error h (congrArg Prod.fst halone)] at hruns
    cases hruns
  · have herrors := (runForSource_ok halone).2.2
    rw [expected_ok h (congrArg Prod.fst halone), stuck, h] at heq
    rw [← heq] at herrors
    cases herrors

/-- A source whose statements do not fail has its outcome and leaves the session ready. -/
theorem Ready.visit_unspoiled (h : Ready R (x :: xs) s) (hn : ((x :: xs).map Prod.fst).Nodup)
    (hspoils : R.spoils x = false) :
    ∃ r s₁, exec (visit R.lib R.registered R.maxBatches R.envs x) s = (.ok r, s₁) ∧
      r.dataSourceId = x.1 ∧ (R.fails x = false → r = R.expected x) ∧ Ready R xs s₁ ∧
      viewOf x.1 s₁.committed = R.expectedView x ∧
      ∀ j, j ≠ x.1 → viewOf j s₁.committed = viewOf j s.committed := by
  cases hadapter : R.hasAdapter x with
  | false =>
    refine ⟨_, s, exec_visit_skipped hadapter, rfl, fun _ => (expected_skipped hadapter).symm,
      h.tail, ?_, fun _ _ => rfl⟩
    rw [expectedView, hadapter]
    exact h.views x List.mem_cons_self
  | true =>
    obtain ⟨houtcome, halike, hsettled, hviews⟩ := h.run
    have hclean : (exec (R.run x) s).2.failed = false := by
      rw [spoils, hadapter, Bool.true_and] at hspoils
      rw [halike.failed, hspoils]
    have hnext := h.next hn hclean
    have hview : viewOf x.1 (exec (R.run x) s).2.committed = R.expectedView x := by
      rw [expectedView, hadapter]
      exact halike.committed
    rcases hrun : exec (R.run x) s with ⟨e | r, s₁⟩ <;>
      rw [hrun] at houtcome hviews hclean hnext hview
    · have hfails := fails_error hadapter houtcome.symm
      refine ⟨failed x e, s₁, ?_, rfl, fun hno => ?_, hnext, hview, hviews⟩
      · rw [exec_visit_error hadapter hrun, hnext.loaded]
        rfl
      · exact absurd (hfails.symm.trans hno) (by decide)
    · exact ⟨r, s₁, exec_visit_ok hadapter hrun, (runForSource_ok hrun).2.1,
        fun _ => (expected_ok hadapter houtcome.symm).symm, hnext, hview, hviews⟩

theorem Ready.visit_spoiled (h : Ready R (x :: xs) s) (hspoils : R.spoils x = true) :
    ∃ e s₁, s₁.failed = true ∧ (s₁.expired && R.lib.rt.expiredReadRaises) = R.expires x ∧
      (exec (visit R.lib R.registered R.maxBatches R.envs x) s =
        if R.expires x then (.error .missingGreenlet, s₁) else (.ok (failed x e), s₁)) ∧
      ∀ j, j ≠ x.1 → viewOf j s₁.committed = viewOf j s.committed := by
  obtain ⟨hadapter, hfailed⟩ := Bool.and_eq_true_iff.mp hspoils
  obtain ⟨-, halike, -, hviews⟩ := h.run
  have hspoiled : (exec (R.run x) s).2.failed = true := halike.failed.trans hfailed
  have hname : ((exec (R.run x) s).2.expired && R.lib.rt.expiredReadRaises) = R.expires x := by
    rw [halike.expired, expires]
  rcases hrun : exec (R.run x) s with ⟨e | r, s₁⟩ <;> rw [hrun] at hspoiled hname hviews
  · refine ⟨e, s₁, hspoiled, hname, ?_, hviews⟩
    rw [exec_visit_error hadapter hrun, hname]
  · exact absurd (hspoiled.symm.trans (runForSource_ok hrun).1) (by decide)

theorem harmless_cons_unspoiled (h : R.spoils x = false) :
    R.Harmless (x :: xs) ↔ R.Harmless xs := by
  rw [Harmless, h, if_neg (by decide)]

theorem harmless_cons_spoiled (h : R.spoils x = true) :
    R.Harmless (x :: xs) ↔
      R.expires x = false ∧ ∀ y ∈ xs, R.hasAdapter y = true → R.fails y = true := by
  rw [Harmless, h, if_pos rfl]

/-- Where no failed statement gets in the way, the others have their outcomes and their rows. -/
theorem exec_all_of_harmless (h : Ready R xs s) (hn : (xs.map Prod.fst).Nodup)
    (harmless : R.Harmless xs) :
    ∃ results s', exec (R.all xs) s = (.ok results, s') ∧
      results.map (·.dataSourceId) = xs.map Prod.fst ∧ Follows R xs results ∧
      (∀ x ∈ xs, R.fails x = false → viewOf x.1 s'.committed = R.expectedView x) ∧
      ∀ j, j ∉ xs.map Prod.fst → viewOf j s'.committed = viewOf j s.committed := by
  induction xs generalizing s with
  | nil => exact ⟨[], s, rfl, rfl, rfl, List.forall_mem_nil _, fun _ _ => rfl⟩
  | cons x xs ih =>
    have hx : x.1 ∉ xs.map Prod.fst := (List.nodup_cons.mp hn).1
    cases hspoils : R.spoils x with
    | false =>
      obtain ⟨r, s₁, hvisit, hid, hr, hready, hview, hviews⟩ := h.visit_unspoiled hn hspoils
      obtain ⟨results, s', hall, hids, hfollows, hrows, hothers⟩ :=
        ih hready (List.nodup_cons.mp hn).2 ((harmless_cons_unspoiled hspoils).mp harmless)
      refine ⟨r :: results, s', ?_, ?_, follows_cons.mpr ⟨hr, hfollows⟩, ?_, fun j hj => ?_⟩
      · rw [all_cons, exec_bind_of_ok hvisit, exec_bind_of_ok hall]
        rfl
      · rw [List.map_cons, List.map_cons, hid, hids]
      · exact List.forall_mem_cons.mpr ⟨fun _ => (hothers x.1 hx).trans hview, hrows⟩
      · rw [List.map_cons, List.mem_cons, not_or] at hj
        exact (hothers j hj.2).trans (hviews j hj.1)
    | true =>
      obtain ⟨hnamed, hrest⟩ := (harmless_cons_spoiled hspoils).mp harmless
      obtain ⟨e, s₁, hfailed, hname, hvisit, hviews⟩ := h.visit_spoiled hspoils
      rw [hnamed] at hname hvisit
      have hskips : ∀ y ∈ xs, R.fails y = false → R.hasAdapter y = false := fun y hy hruns => by
        cases hadapter : R.hasAdapter y with
        | false => rfl
        | true => exact absurd ((hrest y hy hadapter).symm.trans hruns) (by decide)
      refine ⟨failed x e :: xs.map R.stuck, s₁, ?_, ?_, follows_cons.mpr ⟨fun hruns => ?_,
        follows_map.mpr fun y hy hruns => ?_⟩, ?_, fun j hj => ?_⟩
      · rw [all_cons, exec_bind_of_ok hvisit, exec_bind_of_ok (exec_all_stuck hfailed hname)]
        rfl
      · rw [List.map_cons, List.map_cons, List.map_map]
        refine congrArg _ (List.map_congr_left fun y _ => ?_)
        change (R.stuck y).dataSourceId = y.1
        rw [stuck]
        split <;> rfl
      · exact absurd ((fails_of_spoils hspoils).symm.trans hruns) (by decide)
      · rw [expected_skipped (hskips y hy hruns), stuck, hskips y hy hruns]
        rfl
      · refine List.forall_mem_cons.mpr ⟨fun hruns => ?_, fun y hy hruns => ?_⟩
        · exact absurd ((fails_of_spoils hspoils).symm.trans hruns) (by decide)
        · rw [expectedView, hskips y hy hruns, hviews y.1 fun heq =>
            hx (heq ▸ List.mem_map_of_mem hy)]
          exact h.views y (List.mem_cons_of_mem x hy)
      · rw [List.map_cons, List.mem_cons, not_or] at hj
        exact hviews j hj.1

theorem not_follows_of_harm (h : Ready R xs s) (hn : (xs.map Prod.fst).Nodup)
    (harm : ¬ R.Harmless xs) (hall : exec (R.all xs) s = (.ok results, s')) :
    ¬ Follows R xs results := by
  induction xs generalizing s results with
  | nil => exact absurd trivial harm
  | cons x xs ih =>
    rw [all_cons] at hall
    cases hspoils : R.spoils x with
    | false =>
      obtain ⟨r, s₁, hvisit, -, hr, hready, -, -⟩ := h.visit_unspoiled hn hspoils
      rw [exec_bind_of_ok hvisit, exec_bind_ok] at hall
      obtain ⟨rest, s₂, hrest, hall⟩ := hall
      obtain ⟨rfl, rfl⟩ : r :: rest = results ∧ s₂ = s' := by
        simpa only [exec_pure, Prod.mk.injEq, Except.ok.injEq] using hall
      intro hfollows
      exact ih hready (List.nodup_cons.mp hn).2
        (fun harmless => harm ((harmless_cons_unspoiled hspoils).mpr harmless)) hrest
        (follows_cons.mp hfollows).2
    | true =>
      obtain ⟨e, s₁, hfailed, hname, hvisit, -⟩ := h.visit_spoiled hspoils
      cases hnamed : R.expires x with
      | true =>
        rw [hnamed, if_pos rfl] at hvisit
        rw [exec_bind_of_error hvisit] at hall
        cases hall
      | false =>
        rw [hnamed] at hname hvisit
        rw [exec_bind_of_ok hvisit, exec_bind_of_ok (exec_all_stuck hfailed hname)] at hall
        obtain ⟨rfl, -⟩ : failed x e :: xs.map R.stuck = results ∧ s₁ = s' := by
          simpa only [exec_pure, Prod.mk.injEq, Except.ok.injEq] using hall
        intro hfollows
        refine harm ((harmless_cons_spoiled hspoils).mpr ⟨hnamed, fun y hy hadapter => ?_⟩)
        cases hruns : R.fails y with
        | true => rfl
        | false =>
          have heq := follows_map.mp (follows_cons.mp hfollows).2 y hy hruns
          exact absurd heq (stuck_ne_expected hadapter hruns)

theorem harmless_of_forall (h : ∀ x ∈ xs, R.spoils x = false) : R.Harmless xs := by
  induction xs with
  | nil => trivial
  | cons x xs ih =>
    rw [harmless_cons_unspoiled (h x List.mem_cons_self)]
    exact ih fun y hy => h y (List.mem_cons_of_mem x hy)

theorem others_all (h : ∀ x ∈ xs, R.fails x = false) (hlength : results.length = xs.length) :
    R.others xs results = results := by
  have hall : (xs.zip results).filter (fun z => !R.fails z.1) = xs.zip results :=
    List.filter_eq_self.mpr fun z hz => by rw [h z.1 (List.of_mem_zip hz).1]; rfl
  rw [others, hall, List.map_snd_zip hlength.le]

variable {tie : ℕ → ℕ}

theorem sources_nodup : ((R.sources tie).map Prod.fst).Nodup :=
  ((List.perm_insertionSort _ _).map Prod.fst).nodup_iff.mpr (Rows.select_keys_nodup _ _)

theorem ready_opened : Ready R xs (.opened R.db) := ⟨rfl, rfl, rfl, fun _ _ => rfl⟩

/--
The failing sources leave the others alone exactly when the first run with a failed statement, if
there is one, leaves its source a name to report and no other source a run.
-/
theorem sources_isolated_iff : R.Isolates tie ↔ R.Harmless (R.sources tie) := by
  have hloop : exec (runAllActive R.lib R.registered R.maxBatches tie R.envs) (.opened R.db) =
      exec (R.all (R.sources tie)) (.opened R.db) := rfl
  have hruns : ∀ x ∈ (R.sources tie).filter (fun x => !R.fails x), R.fails x = false :=
    fun x hx => by simpa using (List.mem_filter.mp hx).2
  have hquiet : R.Harmless ((R.sources tie).filter fun x => !R.fails x) := by
    refine harmless_of_forall fun x hx => ?_
    cases hspoils : R.spoils x with
    | false => rfl
    | true => exact absurd ((fails_of_spoils hspoils).symm.trans (hruns x hx)) (by decide)
  have hn : (((R.sources tie).filter fun x => !R.fails x).map Prod.fst).Nodup :=
    (List.filter_sublist.map Prod.fst).nodup sources_nodup
  obtain ⟨results₀, s₀, hall₀, hids₀, hfollows₀, hviews₀, -⟩ :=
    exec_all_of_harmless ready_opened hn hquiet
  have hresults₀ : results₀ = ((R.sources tie).filter fun x => !R.fails x).map R.expected := by
    have hlength := congrArg List.length hids₀
    rw [List.length_map, List.length_map] at hlength
    rw [Follows, others_all hruns hlength, List.filter_filter] at hfollows₀
    simpa only [Bool.and_self] using hfollows₀
  constructor
  · rintro ⟨results, s', hexec, -, results₁, s₁, hall₁, hothers, -⟩
    obtain ⟨rfl, rfl⟩ : results₀ = results₁ ∧ s₀ = s₁ := by
      simpa only [Prod.mk.injEq, Except.ok.injEq] using hall₀.symm.trans hall₁
    by_contra harm
    refine not_follows_of_harm ready_opened sources_nodup harm (hloop ▸ hexec) ?_
    rw [Follows, hothers, hresults₀]
  · intro harmless
    obtain ⟨results, s', hall, hids, hfollows, hviews, -⟩ :=
      exec_all_of_harmless ready_opened sources_nodup harmless
    refine ⟨results, s', hloop.trans hall, hids, results₀, s₀, hall₀, ?_, fun x hx hrun => ?_⟩
    · rw [hresults₀]
      exact hfollows
    · have hmem : x ∈ (R.sources tie).filter fun x => !R.fails x :=
        List.mem_filter.mpr ⟨hx, by rw [hrun]; rfl⟩
      rw [hviews x hx hrun, hviews₀ x hmem hrun]

def overlongLogins : List Document :=
  [("agent", .obj [("name", .str (String.ofList (List.replicate 257 'a')))]) :: loginFailure "a1" []]

/-- The first source pulls a login that the server refuses, the second one good logins. -/
def poisonedRound : Round where
  lib := sampleLib
  registered := ["wazuh"]
  maxBatches := 1
  envs i := { batches _ := sampleBatch (if i = 0 then overlongLogins else goodLogins) }
  db := { dataSources := [sampleSource, { sampleSource with name := "wazuh-dr" }] }

/-- The failed insert of the first source keeps the second one from storing its two logins. -/
theorem poisoned_source_stops_others : ¬ poisonedRound.Isolates id := by
  rintro ⟨results, s', hexec, -, results₀, s₀, hall₀, -, hviews⟩
  have hmem : (1, { sampleSource with name := "wazuh-dr" }) ∈ poisonedRound.sources id :=
    List.mem_cons_of_mem _ (List.mem_singleton_self _)
  have hstored : poisonedRound.fails (1, { sampleSource with name := "wazuh-dr" }) = false ∧
      (viewOf 1 (exec (runAllActive sampleLib ["wazuh"] 1 id poisonedRound.envs)
        (.opened poisonedRound.db)).2.committed).2.length = 0 ∧
      (viewOf 1 (exec (poisonedRound.all ((poisonedRound.sources id).filter fun x =>
        !poisonedRound.fails x)) (.opened poisonedRound.db)).2.committed).2.length = 2 := by
    decide +kernel
  obtain ⟨hruns, hnone, htwo⟩ := hstored
  have hview := hviews _ hmem hruns
  have hexec' : exec (runAllActive sampleLib ["wazuh"] 1 id poisonedRound.envs)
      (.opened poisonedRound.db) = (.ok results, s') := hexec
  rw [hexec'] at hnone
  rw [hall₀, ← hview] at htwo
  exact absurd (hnone.symm.trans htwo) (by decide)

end Round

end Ingest

end Minsight

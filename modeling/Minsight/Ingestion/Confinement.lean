import Minsight.Foundation.Agreement
import Minsight.Ingestion.Accounting

/-! # Runs are confined to their sources

A run reads and writes the rows of its own source only, so what it does depends on these rows and
on the state of the session.
-/

namespace Minsight

open Tx

namespace Ingest

def viewOf (i : ℕ) (db : IngestDb) : Option DataSource × Rows Alert :=
  (db.dataSources[i]?, db.alerts.filter fun a => a.dataSourceId == i)

structure Alike (i : ℕ) (s s' : IngestSession) : Prop where
  failed : s.failed = s'.failed
  expired : s.expired = s'.expired
  db : viewOf i s.db = viewOf i s'.db
  committed : viewOf i s.committed = viewOf i s'.committed

def OthersStay (i : ℕ) (s s' : IngestSession) : Prop :=
  (∀ j, j ≠ i → viewOf j s.db = viewOf j s.committed) →
    ∀ j, j ≠ i → viewOf j s'.db = viewOf j s.committed ∧
      viewOf j s'.committed = viewOf j s.committed

instance (i : ℕ) : Std.Refl (OthersStay i) := ⟨fun _ h j hj => ⟨h j hj, rfl⟩⟩

instance (i : ℕ) : IsTrans IngestSession (OthersStay i) := ⟨fun s s' s'' h h' hs j hj => by
  obtain ⟨hdb, hcommitted⟩ := h hs j hj
  have := h' (fun k hk => (h hs k hk).1.trans (h hs k hk).2.symm) j hj
  exact ⟨this.1.trans hcommitted, this.2.trans hcommitted⟩⟩

/-- A program of one source: it depends on the rows of its source and leaves the others alone. -/
structure Confined {α : Type} (i : ℕ) (m : Ingest α) : Prop where
  agrees : Agrees (Alike i) m
  others : Respects (OthersStay i) m

structure Own {α : Type} (i : ℕ) (f : IngestDb → Except Exn (α × IngestDb)) : Prop where
  agrees : ∀ db db', viewOf i db = viewOf i db' →
    (f db).map (Prod.map id (viewOf i)) = (f db').map (Prod.map id (viewOf i))
  others : ∀ db a db', f db = .ok (a, db') → ∀ j, j ≠ i → viewOf j db' = viewOf j db

section

variable {α β : Type} {i : ℕ} {m : Ingest α} {k : α → Ingest β}

theorem confined_pure (a : α) : Confined i (pure a : Ingest α) := ⟨agrees_pure a, respects_pure a⟩

theorem confined_raise (e : Exn) : Confined i (Tx.raise e : Ingest α) :=
  ⟨agrees_raise e, respects_raise e⟩

theorem confined_fallible (o : Option Exn) : Confined i (Tx.fallible o : Ingest Unit) :=
  ⟨agrees_fallible o, respects_fallible o⟩

theorem Confined.bind (hm : Confined i m) (hk : ∀ a, Confined i (k a)) : Confined i (m >>= k) :=
  ⟨hm.agrees.bind fun a => (hk a).agrees, hm.others.bind fun a => (hk a).others⟩

theorem Confined.attempt (hm : Confined i m) : Confined i (Tx.attempt m) :=
  ⟨hm.agrees.attempt, hm.others.attempt⟩

theorem confined_outcome_bind {r : Except Exn α} (h : ∀ a, r = .ok a → Confined i (k a)) :
    Confined i (outcome r >>= k) := by
  cases r with
  | error e =>
    have hraise : ∀ s, exec (outcome (.error e) >>= k) s = (.error e, s) := fun s => exec_bind_raise
    refine ⟨fun s s' h => ?_, fun s => ?_⟩
    · rw [hraise, hraise]
      exact ⟨rfl, h⟩
    · rw [hraise]
      exact Std.Refl.refl s
  | ok a =>
    rw [outcome, pure_bind]
    exact h a rfl

theorem exec_attemptStatement {expires : Bool} {f : IngestDb → Except Exn (α × IngestDb)}
    (s : IngestSession) :
    exec (attemptStatement expires f) s =
      if s.failed then (.error .pendingRollback, s)
      else
        match f s.db with
        | .ok (a, db) => (.ok a, { s with db := db })
        | .error e => (.error e, { s with failed := true, expired := s.expired || expires }) := rfl

theorem Own.confined {expires : Bool} {f : IngestDb → Except Exn (α × IngestDb)} (own : Own i f) :
    Confined i (attemptStatement expires f) := by
  refine ⟨fun s s' h => ?_, fun s hs j hj => ?_⟩
  · rw [exec_attemptStatement, exec_attemptStatement, ← h.failed]
    cases hfailed : s.failed with
    | true => exact ⟨rfl, h⟩
    | false =>
      have hagree := own.agrees s.db s'.db h.db
      rcases hf : f s.db with e | ⟨a, db⟩ <;> rcases hf' : f s'.db with e' | ⟨a', db'⟩ <;>
        rw [hf, hf'] at hagree
      · obtain rfl : e = e' := by simpa [Except.map] using hagree
        exact ⟨rfl, rfl, by simp [h.expired], h.db, h.committed⟩
      · cases hagree
      · cases hagree
      · obtain ⟨rfl, hview⟩ : a = a' ∧ viewOf i db = viewOf i db' := by
          simpa [Except.map] using hagree
        exact ⟨rfl, rfl, h.expired, hview, h.committed⟩
  · rw [exec_attemptStatement]
    cases hfailed : s.failed with
    | true => exact ⟨hs j hj, rfl⟩
    | false =>
      rcases hf : f s.db with e | ⟨a, db⟩
      · exact ⟨hs j hj, rfl⟩
      · exact ⟨(own.others s.db a db hf j hj).trans (hs j hj), rfl⟩

/-- A statement that writes rows of one source, as those of its rows it can see tell it. -/
theorem own_write {fault : Option Exn} {value : IngestDb → α} {write : IngestDb → IngestDb}
    (hvalue : ∀ db db', viewOf i db = viewOf i db' → value db = value db')
    (hwrite : ∀ db db', viewOf i db = viewOf i db' → viewOf i (write db) = viewOf i (write db'))
    (hothers : ∀ db j, j ≠ i → viewOf j (write db) = viewOf j db) :
    Own i fun db => answer fault (value db) (write db) := by
  cases fault with
  | some e => exact ⟨fun _ _ _ => rfl, fun _ _ _ h => by cases h⟩
  | none =>
    refine ⟨fun db db' h => ?_, fun db b db' h j hj => ?_⟩
    · simp [answer, Except.map, hwrite db db' h, hvalue db db' h]
    · obtain ⟨-, -, rfl⟩ := answer_ok.mp h
      exact hothers db j hj

theorem own_query {fault : Option Exn} {value : IngestDb → α}
    (h : ∀ db db', viewOf i db = viewOf i db' → value db = value db') :
    Own i fun db => answer fault (value db) db :=
  own_write h (fun _ _ h => h) fun _ _ _ => rfl

theorem Own.guard {f : IngestDb → Except Exn (α × IngestDb)} {c : Bool} {e : Exn} (own : Own i f) :
    Own i fun db => if c then f db else .error e := by
  cases c with
  | true => exact own
  | false => exact ⟨fun _ _ _ => rfl, fun _ _ _ h => by cases h⟩

theorem confined_commit {fault : Option Exn} : Confined i (commit fault) := by
  refine (Own.confined (own_query fun _ _ _ => rfl)).bind fun _ => ⟨fun s s' h => ?_, fun s hs j hj => ?_⟩
  · exact ⟨rfl, h.failed, h.expired, h.db, h.db⟩
  · exact ⟨hs j hj, hs j hj⟩

theorem source_of_view {db db' : IngestDb} (h : viewOf i db = viewOf i db') :
    db.dataSources[i]? = db'.dataSources[i]? := congrArg Prod.fst h

theorem confined_getSource {fault : Option Exn} : Confined i (getSource i fault) :=
  Own.confined (own_query fun _ _ => source_of_view)

theorem confined_refresh {source : DataSource} {fault : Option Exn} :
    Confined i (refresh i source fault) :=
  Own.confined (own_query fun _ _ h => by rw [source_of_view h])

variable {lib : IngestLib} {rows : List Alert}

theorem own_saveCursor {state : Json} {fault : Option Exn} :
    Own i (saveCursor lib i state fault) := by
  refine Own.guard (own_write (fun _ _ _ => rfl) (fun db db' h => ?_) fun db j hj => ?_)
  · have halerts : (viewOf i db).2 = (viewOf i db').2 := congrArg Prod.snd h
    simp only [viewOf] at halerts
    simp [viewOf, List.getElem?_modify_eq, source_of_view h, halerts]
  · simp [viewOf, List.getElem?_modify_ne _ _ hj.symm]

theorem own_insertRows {fault : Option Exn} (h : ∀ row ∈ rows, row.dataSourceId = i) :
    Own i (insertRows lib rows fault) := by
  have hmine : ∀ row ∈ rows, (row.dataSourceId == i) = true := fun row hrow =>
    beq_iff_eq.mpr (h row hrow)
  have hpart : ∀ a b, sameSourceAlert a b = true → (b.dataSourceId == i) = (a.dataSourceId == i) :=
    fun a b hab => by rw [(sameSourceAlert_iff.mp hab).1]
  have hfilter : ∀ db : IngestDb,
      (insertNew db.alerts rows).filter (fun a => a.dataSourceId == i) =
        insertNew (viewOf i db).2 rows := fun db =>
    Conflicts.filter_insertAbsent hpart hmine
  have hcount : ∀ db : IngestDb, (insertNew db.alerts rows).length - db.alerts.length =
      (insertNew (viewOf i db).2 rows).length - (viewOf i db).2.length := fun db => by
    rw [← hfilter]
    exact (Conflicts.length_filter_insertAbsent hmine).symm
  refine Own.guard (own_write (fun db db' hview => ?_) (fun db db' hview => ?_) fun db j hj => ?_)
  · rw [hcount, hcount, hview]
  · have hsource : db.dataSources[i]? = db'.dataSources[i]? := source_of_view hview
    refine Prod.ext hsource ?_
    change (insertNew db.alerts rows).filter _ = (insertNew db'.alerts rows).filter _
    rw [hfilter, hfilter, hview]
  · refine Prod.ext rfl (Conflicts.filter_insertAbsent_other fun row hrow => ?_)
    exact beq_eq_false_iff_ne.mpr fun hrow' => hj (hrow' ▸ h row hrow)

variable {source : DataSource} {cursor : CursorState} {env : BatchEnv}

theorem confined_runBatch : Confined i (runBatch lib i source cursor env) := by
  refine confined_outcome_bind fun pull _ => confined_outcome_bind fun rows hrows => ?_
  have hmine : ∀ row ∈ rows, row.dataSourceId = i := fun row hrow => by
    obtain ⟨m, -, hm⟩ := mem_mapM_ok hrows hrow
    exact (rowOf_ok hm).1
  have hinsert : Confined i (insertBatch lib rows env.insertFault) := by
    unfold insertBatch
    split
    · exact confined_pure 0
    · split
      · exact (own_insertRows hmine).confined
      · exact confined_raise _
  refine hinsert.bind fun inserted => own_saveCursor.confined.bind fun _ =>
    (Own.confined (own_query fun _ _ _ => rfl)).bind fun _ => confined_commit.bind fun _ => ?_
  refine Confined.bind ⟨fun s s' h => ?_, fun s hs j hj => ⟨hs j hj, rfl⟩⟩ fun _ =>
    confined_refresh.bind fun _ => confined_pure _
  exact ⟨rfl, h.failed, h.expired, h.db, h.committed⟩

theorem confined_runBatches {batches : ℕ → BatchEnv} {left n : ℕ} {result : IngestRunResult} :
    Confined i (runBatches lib i batches left n result source cursor) := by
  induction left generalizing n result source cursor with
  | zero => exact confined_pure result
  | succ left ih =>
    refine confined_runBatch.bind fun b => ?_
    dsimp only
    split
    · exact confined_raise _
    · split
      · exact ih
      · exact confined_pure _

theorem confined_execute {registered : List String} {maxBatches : ℕ} {env : RunEnv} :
    Confined i (execute lib registered i source maxBatches env) := by
  unfold execute
  split
  · refine (confined_fallible _).bind fun _ => ?_
    split
    · exact confined_raise _
    · exact confined_runBatches
  · exact confined_raise _

theorem confined_runForSource {registered : List String} {maxBatches : ℕ} {useLock : Bool}
    {env : RunEnv} : Confined i (runForSource lib registered i maxBatches useLock env) := by
  refine confined_getSource.bind fun found => ?_
  split
  · exact confined_raise _
  · split
    · exact confined_pure _
    · split
      · refine (confined_fallible _).bind fun _ => ?_
        split
        · refine confined_execute.attempt.bind fun run => (confined_fallible _).bind fun _ => ?_
          cases run with
          | error e => exact confined_raise e
          | ok result => exact confined_pure result
        · exact confined_pure _
      · exact confined_execute

/-- Without a failed statement, all is committed and nothing has to be loaded again. -/
def Settled (s : IngestSession) : Prop :=
  s.failed = false → s.db = s.committed ∧ s.expired = false

def Settles (s s' : IngestSession) : Prop := Settled s → Settled s'

instance : Std.Refl Settles := ⟨fun _ h => h⟩

instance : IsTrans IngestSession Settles := ⟨fun _ _ _ h h' hs => h' (h hs)⟩

theorem marks_attemptStatement {expires : Bool} {f : IngestDb → Except Exn (α × IngestDb)} :
    Marks (fun s => s.failed = true) (attemptStatement expires f) := by
  intro s e s' h
  rw [exec_attemptStatement] at h
  cases hfailed : s.failed with
  | true =>
    rw [hfailed] at h
    obtain ⟨-, rfl⟩ := Prod.mk.inj h
    exact hfailed
  | false =>
    rw [hfailed] at h
    rcases hf : f s.db with e' | ⟨a, db⟩ <;> rw [hf] at h
    · obtain ⟨-, rfl⟩ := Prod.mk.inj h
      rfl
    · cases h

theorem marks_commit {fault : Option Exn} : Marks (fun s => s.failed = true) (commit fault) :=
  marks_attemptStatement.bind fun _ => marks_write _

/-- An insert that the driver refuses does nothing; one that fails later is a failed statement. -/
theorem insertBatch_error {fault : Option Exn} {e : Exn} {s s' : IngestSession}
    (h : exec (insertBatch lib rows fault) s = (.error e, s')) : s' = s ∨ s'.failed = true := by
  unfold insertBatch at h
  split at h
  · cases h
  · split at h
    · exact .inr (marks_attemptStatement _ _ _ h)
    · exact .inl (Prod.mk.inj h).2.symm

theorem runBatch_error {e : Exn} {s s' : IngestSession}
    (h : exec (runBatch lib i source cursor env) s = (.error e, s')) :
    s' = s ∨ s'.failed = true := by
  unfold runBatch at h
  cases hpull : env.pull source.config cursor with
  | error e' =>
    rw [hpull, outcome, exec_bind_raise] at h
    exact .inl (Prod.mk.inj h).2.symm
  | ok pull =>
    rw [hpull, outcome, pure_bind] at h
    cases hrows : (mappedItems (mapItems env i source.name pull.items)).mapM
        fun m => rowOf lib env i m.2 with
    | error e' =>
      dsimp only at h
      rw [hrows, outcome, exec_bind_raise] at h
      exact .inl (Prod.mk.inj h).2.symm
    | ok rows =>
      dsimp only at h
      rw [hrows, outcome, pure_bind] at h
      rcases hinsert : exec (insertBatch lib rows env.insertFault) s with ⟨e' | inserted, s₁⟩
      · rw [exec_bind_of_error hinsert] at h
        obtain ⟨-, rfl⟩ := Prod.mk.inj h
        exact insertBatch_error hinsert
      · rw [exec_bind_of_ok hinsert] at h
        suffices hmarks : Marks (fun s : IngestSession => s.failed = true) _ from
          .inr (hmarks _ _ _ h)
        exact marks_attemptStatement.bind fun _ => marks_attemptStatement.bind fun _ =>
          marks_commit.bind fun _ => (marks_write _).bind fun _ =>
            marks_attemptStatement.bind fun _ => marks_pure _

theorem runBatch_settles : Respects Settles (runBatch lib i source cursor env) := by
  intro s hs hfailed
  rcases h : exec (runBatch lib i source cursor env) s with ⟨e | r, s'⟩ <;> rw [h] at hfailed
  · rcases runBatch_error h with rfl | hmark
    · exact hs hfailed
    · exact absurd hmark (Bool.eq_false_iff.mp hfailed)
  · obtain ⟨hf, pull, rows, -, -, -, -, rfl⟩ := exec_runBatch_ok.mp h
    exact ⟨rfl, (hs hf).2⟩

theorem settles_query {expires : Bool} {fault : Option Exn} {value : IngestDb → α} :
    Respects Settles (attemptStatement expires fun db => answer fault (value db) db) := by
  intro s hs hfailed
  rw [exec_attemptStatement] at hfailed ⊢
  cases hf : s.failed with
  | true =>
    rw [hf] at hfailed
    exact absurd (hf.symm.trans hfailed) (by decide)
  | false =>
    rw [hf] at hfailed
    cases fault with
    | some e => cases hfailed
    | none => exact hs hf

theorem runBatches_settles {batches : ℕ → BatchEnv} {left n : ℕ} {result : IngestRunResult} :
    Respects Settles (runBatches lib i batches left n result source cursor) := by
  induction left generalizing n result source cursor with
  | zero => exact respects_pure result
  | succ left ih =>
    refine runBatch_settles.bind fun b => ?_
    dsimp only
    split
    · exact respects_raise _
    · split
      · exact ih
      · exact respects_pure _

theorem execute_settles {registered : List String} {maxBatches : ℕ} {env : RunEnv} :
    Respects Settles (execute lib registered i source maxBatches env) := by
  unfold execute
  split
  · refine (respects_fallible _).bind fun _ => ?_
    split
    · exact respects_raise _
    · exact runBatches_settles
  · exact respects_raise _

theorem runForSource_settles {registered : List String} {maxBatches : ℕ} {useLock : Bool}
    {env : RunEnv} :
    Respects Settles (runForSource lib registered i maxBatches useLock env) := by
  refine Respects.bind settles_query fun found => ?_
  split
  · exact respects_raise _
  · split
    · exact respects_pure _
    · split
      · refine (respects_fallible _).bind fun _ => ?_
        split
        · refine execute_settles.attempt.bind fun run => (respects_fallible _).bind fun _ => ?_
          cases run with
          | error e => exact respects_raise e
          | ok result => exact respects_pure result
        · exact respects_pure _
      · exact execute_settles

theorem Chain.failed {batches : ℕ → BatchEnv} {n : ℕ} {bs : List IngestBatchResult}
    {s s' : IngestSession} (h : Chain lib i batches n s bs s') (hs : s.failed = false) :
    s'.failed = false := by
  induction h with
  | done => exact hs
  | step hstep _ ih =>
    obtain ⟨source, cursor, source', -, -, hexec⟩ := hstep.runs
    obtain ⟨-, pull, rows, -, -, -, -, rfl⟩ := exec_runBatch_ok.mp hexec
    exact ih hs

theorem runForSource_ok {registered : List String} {maxBatches : ℕ} {useLock : Bool}
    {env : RunEnv} {result : IngestRunResult} {s s' : IngestSession}
    (h : exec (runForSource lib registered i maxBatches useLock env) s = (.ok result, s')) :
    s'.failed = false ∧ result.dataSourceId = i ∧ result.errors = [] := by
  obtain ⟨hfailed, ⟨rfl, rfl⟩ | ⟨rfl, rfl⟩ | ⟨source, hsource, hexec⟩⟩ := runForSource_cases h
  · exact ⟨hfailed, rfl, rfl⟩
  · exact ⟨hfailed, rfl, rfl⟩
  · obtain ⟨hresult, hchain⟩ := chain_of_execute hsource hexec
    rw [hresult]
    exact ⟨hchain.failed hfailed, rfl, rfl⟩

end

end Ingest

end Minsight

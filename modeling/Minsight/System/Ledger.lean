import Minsight.System.Budget

/-! # The daily counter and the commits

The counter and the skip markers are kept in Redis and the investigations in the database, and no
transaction spans the two. The book of a run lists its investigations and replies with the worlds
before and after each of them.
-/

namespace Minsight

open Tx Session

variable {rt : Runtime} {config : InvestigationConfig} {tie : ℕ → ℕ}

abbrev Unspent : World → World → Prop := KeepsOut fun o => (o.dailyCount, o.skipBudget)

/-- At most one unit of the counter or the marker of the event is used. -/
inductive Outside.Spends (e : ℕ) (o o' : Outside) : Prop
  | nothing : o'.dailyCount = o.dailyCount → o'.skipBudget = o.skipBudget → Outside.Spends e o o'
  | unit (day : ℤ) : o'.dailyCount = Function.update o.dailyCount day (o.dailyCount day + 1) →
      o'.skipBudget = o.skipBudget → Outside.Spends e o o'
  | marker : o'.dailyCount = o.dailyCount → o'.skipBudget = Function.update o.skipBudget e none →
      Outside.Spends e o o'

theorem allowsClock_unspent : AllowsClock rt Unspent := fun _ _ => rfl

theorem allowsAgent_unspent (investigationId eventId : ℕ) :
    AllowsAgent rt Unspent investigationId eventId where
  clock := allowsClock_unspent
  investigation _ _ := respectsOut_modify _
  message _ := respectsOut_modify _
  toolCall _ := respectsOut_modify _
  correlate _ _ := respectsOut_modify _
  observe _ := respectsOut_setRedis fun _ => rfl
  fail := failTransaction_respects fun w => Std.Refl.refl (r := Unspent) w

theorem logAgentStart_unspent {shown : Time} {e : ℕ} : Respects Unspent (logAgentStart rt shown e) :=
  (allowsClock_unspent.utcNow _).bind fun _ => (respects_query _).bind fun _ =>
    (respects_redis _).bind fun _ => (respects_redis _).bind fun _ =>
    Respects.bind (respectsOut_setRedis fun _ => rfl) fun _ => respects_pure _

theorem startInvestigation_unspent {env : InvestigationEnv} {e : ℕ} :
    Respects Unspent (startInvestigation rt config env e) :=
  (allowsClock_unspent.utcNow _).bind fun _ => (respects_query _).bind fun _ =>
    (respectsOut_modify _).bind fun _ => (respects_fallible _).bind fun _ =>
    (respectsOut_modify _).bind fun _ => (respects_fallible _).bind fun _ =>
    (respects_fallible _).bind fun _ => respects_pure _

theorem investigateEvent_unspent {env : InvestigationEnv} {e : ℕ} :
    Respects Unspent (investigateEvent rt config env tie e) := by
  refine startInvestigation_unspent.bind fun _ => (respects_query _).bind fun db => ?_
  split
  · exact respects_raise _
  · exact (respectsOut_modify _).bind fun _ => logAgentStart_unspent.bind fun _ =>
      (agentRun_respects (allowsAgent_unspent _ _)).bind fun _ =>
      (respects_statement _).bind fun _ => (respects_query _).bind fun _ =>
      (allowsClock_unspent.utcNow _).bind fun _ => (respects_fallible _).bind fun _ =>
      (respectsOut_modify _).bind fun _ => respects_pure _

/-- A read of the marker raises or finds none and spends nothing, or it takes the marker. -/
theorem consumeSkipBudget_cases {shown : Time} {faults : InvestigationPoint → Option Exn} {e : ℕ}
    {w w' : World} {r : Except Exn Bool}
    (h : exec (consumeSkipBudget rt shown faults e) w = (r, w')) :
    w'.db = w.db ∧ (r ≠ .ok true ∧ Unspent w w' ∨
      r = .ok true ∧ w.out.skipBudget e ≠ none ∧ w'.out.dailyCount = w.out.dailyCount ∧
        w'.out.skipBudget = Function.update w.out.skipBudget e none) := by
  have hdb : w'.db = w.db :=
    (consumeSkipBudget_respects (r := fun db db' => db' = db)).of_exec h
  refine ⟨hdb, ?_⟩
  rw [consumeSkipBudget, exec_utcNow_bind] at h
  cases hget : faults .markerGet with
  | some x =>
    rw [hget] at h
    obtain ⟨rfl, rfl⟩ := Prod.mk.inj h
    exact .inl ⟨error_ne_ok, rfl⟩
  | none =>
    rw [hget, show (fallible none : Session Unit) = pure () from rfl, exec_bind_pure,
      exec_redis_bind] at h
    split at h
    · rename_i hmarked
      cases hdelete : faults .markerDelete with
      | some x =>
        rw [hdelete] at h
        obtain ⟨rfl, rfl⟩ := Prod.mk.inj h
        exact .inl ⟨error_ne_ok, rfl⟩
      | none =>
        rw [hdelete, show (fallible none : Session Unit) = pure () from rfl, exec_bind_pure,
          exec_setRedis_bind] at h
        obtain ⟨rfl, rfl⟩ := Prod.mk.inj h
        refine .inr ⟨congrArg Except.ok hmarked, fun hnone => ?_, rfl, rfl⟩
        simp only [hasSkipMarker, hnone] at hmarked
        cases hmarked
    · rename_i hunmarked
      obtain ⟨rfl, rfl⟩ := Prod.mk.inj h
      exact .inl ⟨fun hr => hunmarked (Except.ok.inj hr), rfl⟩

/-- The counter is advanced for the day of the clock, or the command raises and nothing is spent. -/
theorem incrementDailyCount_unit {shown : Time} {faults : InvestigationPoint → Option Exn}
    {start : ℕ} {w w' : World} {r : Except Exn Unit} (hexpire : faults .counterExpire = none)
    (h : exec (incrementDailyCount rt shown faults start) w = (r, w')) :
    w'.db = w.db ∧ (r ≠ .ok () ∧ Unspent w w' ∨
      r = .ok () ∧ w'.out.skipBudget = w.out.skipBudget ∧
        w'.out.dailyCount = Function.update w.out.dailyCount (utcDay w'.out.clock)
          (w.out.dailyCount (utcDay w'.out.clock) + 1)) := by
  have hdb : w'.db = w.db :=
    (incrementDailyCount_respects (r := fun db db' => db' = db)).of_exec h
  refine ⟨hdb, ?_⟩
  rw [incrementDailyCount, exec_utcNow_bind] at h
  cases hincr : faults .counterIncr with
  | some x =>
    rw [hincr] at h
    obtain ⟨rfl, rfl⟩ := Prod.mk.inj h
    exact .inl ⟨error_ne_ok, rfl⟩
  | none =>
    rw [hincr, show (fallible none : Session Unit) = pure () from rfl, exec_bind_pure,
      exec_redis_bind, exec_setRedis_bind, hexpire, show (fallible none : Session Unit) = pure ()
      from rfl, ite_self] at h
    obtain ⟨rfl, rfl⟩ := Prod.mk.inj h
    exact .inr ⟨rfl, rfl, rfl⟩

structure BookEntry where
  /-- The event that is investigated, if this is no reply. -/
  investigated : Option ℕ
  before : World
  committed : Bool
  after : World

/-- A committed investigation of the day whose event is no probe and keeps its marker. -/
def BookEntry.charges (day : ℤ) (a : BookEntry) : Bool :=
  a.committed && a.investigated.any fun e => !eventIsProbe a.after.db e
    && decide (a.after.out.skipBudget e = a.before.out.skipBudget e)
    && utcDay a.after.out.clock == day

/-- The entry spends at most once, and only if it is committed. -/
structure BookEntry.Fair (a : BookEntry) : Prop where
  failed : a.committed = false → Unspent a.before a.after
  once : ∀ e, a.investigated = some e → a.committed = true →
    Outside.Spends e a.before.out a.after.out

/-- An investigation whose commit does not fail, and no expiry of the counter. -/
def InvestigationEnv.Commits (env : InvestigationEnv) : Prop :=
  env.faults .commit = none ∧ env.faults .counterExpire = none

/-- A program that raises and spends nothing, or returns and is charged for what it spends. -/
def Books (e : ℕ) (w : World) (r : Except Exn Unit) (w' : World) : Prop :=
  r ≠ .ok () ∧ Unspent w w' ∨ r = .ok () ∧ Outside.Spends e w.out w'.out ∧
    ∀ day, w'.out.dailyCount day = w.out.dailyCount day +
      if (BookEntry.mk (some e) w true w').charges day then 1 else 0

theorem Books.of_unspent {e : ℕ} {w w₁ w' : World} {r : Except Exn Unit} (hquiet : Unspent w w₁)
    (h : Books e w₁ r w') : Books e w r w' := by
  obtain ⟨hdaily, hskip⟩ := Prod.mk.inj hquiet
  rcases h with ⟨hr, hrest⟩ | ⟨hr, hspends, hday⟩
  · exact .inl ⟨hr, IsTrans.trans (r := Unspent) _ _ _ hquiet hrest⟩
  · refine .inr ⟨hr, ?_, fun day => ?_⟩
    · cases hspends with
      | nothing hd hs => exact .nothing (hd.trans hdaily) (hs.trans hskip)
      | unit day hd hs => exact .unit day (hdaily ▸ hd) (hs.trans hskip)
      | marker hd hs => exact .marker (hd.trans hdaily) (hskip ▸ hs)
    · have hcharges : (BookEntry.mk (some e) w₁ true w').charges day =
          (BookEntry.mk (some e) w true w').charges day := by
        unfold BookEntry.charges
        dsimp only
        rw [hskip]
      rw [hday, hdaily, hcharges]

theorem bookkeeping_books {env : InvestigationEnv} {e start : ℕ} {w w' : World}
    {r : Except Exn Unit} (henv : env.Commits) (hprobe : eventIsProbe w.db e = false)
    (h : exec (do
      let skipped ← consumeSkipBudget rt env.markerAt env.faults e
      if !skipped then incrementDailyCount rt env.countedAt env.faults start
      pure ()) w = (r, w')) : Books e w r w' := by
  rcases hconsume : exec (consumeSkipBudget rt env.markerAt env.faults e) w with ⟨x | taken, w₁⟩
  · rw [exec_bind_of_error hconsume] at h
    obtain ⟨rfl, rfl⟩ := Prod.mk.inj h
    obtain ⟨-, ⟨-, hquiet⟩ | ⟨hr, -⟩⟩ := consumeSkipBudget_cases hconsume
    · exact .inl ⟨error_ne_ok, hquiet⟩
    · cases hr
  rw [exec_bind_of_ok hconsume] at h
  obtain ⟨hdb₁, ⟨hr, hquiet⟩ | ⟨hr, hmarked, hdaily, hskip⟩⟩ := consumeSkipBudget_cases hconsume
  · obtain rfl : taken = false := by simpa using hr
    refine .of_unspent hquiet ?_
    rw [Bool.not_false, if_pos rfl] at h
    rcases hcount : exec (incrementDailyCount rt env.countedAt env.faults start) w₁ with ⟨x | u, w₂⟩
    · rw [exec_bind_of_error hcount] at h
      obtain ⟨rfl, rfl⟩ := Prod.mk.inj h
      obtain ⟨-, ⟨-, hcounted⟩ | ⟨hr, -⟩⟩ := incrementDailyCount_unit henv.2 hcount
      · exact .inl ⟨error_ne_ok, hcounted⟩
      · cases hr
    · rw [exec_bind_of_ok hcount] at h
      obtain ⟨rfl, rfl⟩ := Prod.mk.inj h
      obtain ⟨hdb₂, ⟨hr, -⟩ | ⟨-, hskip, hdaily⟩⟩ := incrementDailyCount_unit henv.2 hcount
      · exact absurd rfl hr
      have hprobe₂ : eventIsProbe w₂.db e = false := by rw [hdb₂, hdb₁, hprobe]
      refine .inr ⟨rfl, .unit _ hdaily hskip, fun day => ?_⟩
      rw [hdaily]
      by_cases hday : day = utcDay w₂.out.clock
      · subst hday
        simp [BookEntry.charges, hprobe₂, hskip]
      · simp [BookEntry.charges, hday, Ne.symm hday]
  · obtain rfl := Except.ok.inj hr
    obtain ⟨rfl, rfl⟩ := Prod.mk.inj h
    refine .inr ⟨rfl, .marker hdaily hskip, fun day => ?_⟩
    simp [BookEntry.charges, hdaily, hskip, Ne.symm hmarked]

theorem investigateAndCount_books {env : InvestigationEnv} {e : ℕ} {w w' : World}
    {r : Except Exn Unit} (henv : env.Commits)
    (h : exec (investigateAndCount rt config env tie e) w = (r, w')) : Books e w r w' := by
  rw [investigateAndCount] at h
  rcases hinv : exec (investigateEvent rt config env tie e) w with ⟨x | start, w₁⟩
  · rw [exec_bind_of_error hinv] at h
    obtain ⟨rfl, rfl⟩ := Prod.mk.inj h
    exact .inl ⟨error_ne_ok, investigateEvent_unspent.of_exec hinv⟩
  refine .of_unspent (investigateEvent_unspent.of_exec hinv) ?_
  rw [exec_bind_of_ok hinv] at h
  cases hbudget : env.faults .budget with
  | some x =>
    rw [hbudget] at h
    obtain ⟨rfl, rfl⟩ := Prod.mk.inj h
    exact .inl ⟨error_ne_ok, rfl⟩
  | none =>
    rw [hbudget, show (fallible none : Session Unit) = pure () from rfl, exec_bind_pure,
      exec_query_bind, henv.1, show (fallible none : Session Unit) = pure () from rfl] at h
    cases hprobe : eventIsProbe w₁.db e with
    | true =>
      rw [hprobe] at h
      obtain ⟨rfl, rfl⟩ := Prod.mk.inj h
      refine .inr ⟨rfl, .nothing rfl rfl, fun day => ?_⟩
      simp [BookEntry.charges, hprobe]
    | false =>
      rw [hprobe, Bool.not_false, if_pos rfl] at h
      exact bookkeeping_books henv hprobe h

/-- A reply that raises sets no marker, unless its commit is what fails. -/
theorem handleReply_books {config : HumanReviewConfig} {env : ReplyEnv} {rawContent : String}
    {externalMsgId responder : Option String} {requestId : Option ℕ} {w w' : World} {x : Exn}
    (hcommit : config.reinvestigationEnabled = true → env.faults .commit = none)
    (h : exec (handleReply rt config env rawContent externalMsgId responder requestId) w =
      (.error x, w')) : Unspent w w' := by
  have body {β : Type} {m : Session β} (hm : ∀ w₁ x, exec m w = (.error x, w₁) → Unspent w w₁)
      (h : exec (Session.transaction m) w = (.error x, w')) : Unspent w w' := by
    rw [exec_atomically] at h
    rcases hb : exec m w with ⟨y | b, w₁⟩ <;> rw [hb] at h <;> cases h
    have hquiet := hm w₁ x hb
    exact hquiet
  refine body (fun w₁ x h => ?_) h
  cases hfind : env.faults .findRequest with
  | some y =>
    rw [hfind] at h
    obtain ⟨-, rfl⟩ := Prod.mk.inj h
    exact rfl
  | none =>
    rw [hfind, show (fallible none : Session Unit) = pure () from rfl, exec_bind_pure,
      exec_query_bind] at h
    split at h
    · cases h
    · cases hexists : env.faults .responseExists with
      | some y =>
        rw [hexists] at h
        obtain ⟨-, rfl⟩ := Prod.mk.inj h
        exact rfl
      | none =>
        rw [hexists, show (fallible none : Session Unit) = pure () from rfl, exec_bind_pure] at h
        split at h
        · obtain ⟨-, rfl⟩ := Prod.mk.inj h
          exact rfl
        · cases h
        · rw [exec_utcNow_bind] at h
          dsimp only at h
          split at h
          · rename_i htriggered
            cases hredis : env.faults .redis with
            | some y =>
              rw [hredis] at h
              obtain ⟨-, rfl⟩ := Prod.mk.inj h
              exact rfl
            | none =>
              -- the marker is set, and nothing fails after it
              rw [hredis, hcommit (Bool.and_eq_true_iff.mp htriggered).2] at h
              cases h
          · cases hlast : env.faults .commit with
            | some y =>
              rw [hlast] at h
              obtain ⟨-, rfl⟩ := Prod.mk.inj h
              exact rfl
            | none =>
              rw [hlast] at h
              cases h

def selectEvents (rt : Runtime) (config : InvestigationConfig) (env : InvestigationRunEnv)
    (limit : Option ℤ) (useLock : Bool) : Session (List ℕ) := do
  if useLock && !env.lockAcquired then pure []
  else
    let remaining ← budgetRemaining rt env.budgetAt config.dailyEventBudget
    if remaining ≤ 0 then pure []
    else
      let n ← sqlLimit (min (limitOr limit config.batchSize) remaining)
      Tx.fallible env.pickFault
      Session.query (pickEvents env.tie n)

theorem investigationRun_end {env : InvestigationRunEnv} {limit : Option ℤ} {useLock : Bool}
    {w : World} : (exec (investigationRun rt config env limit useLock) w).2 =
      match exec (selectEvents rt config env limit useLock) w with
      | (.ok events, w₁) => (exec ((investigationLoop rt config env).run events {}) w₁).2
      | (.error _, w₁) => w₁ := by
  unfold investigationRun selectEvents
  split
  · rfl
  · rcases hread : exec (budgetRemaining rt env.budgetAt config.dailyEventBudget) w with ⟨x | n, w₁⟩
    · rw [exec_bind_of_error hread, exec_bind_of_error hread]
    rw [exec_bind_of_ok hread, exec_bind_of_ok hread]
    split
    · rfl
    · rcases hlimit : exec (sqlLimit (min (limitOr limit config.batchSize) n)) w₁ with ⟨x | k, w₂⟩
      · rw [exec_bind_of_error hlimit, exec_bind_of_error hlimit]
      rw [exec_bind_of_ok hlimit, exec_bind_of_ok hlimit]
      cases env.pickFault <;> rfl

def investigationEntry (a : Loop.Attempt Exn World ℕ Unit) : BookEntry where
  investigated := some a.item
  before := a.before
  committed := a.outcome.isOk
  after := a.after

def investigationBook (rt : Runtime) (config : InvestigationConfig) (env : InvestigationRunEnv)
    (limit : Option ℤ) (useLock : Bool) (w : World) : List BookEntry :=
  match exec (selectEvents rt config env limit useLock) w with
  | (.ok events, w₁) => ((investigationLoop rt config env).attempts events w₁).map investigationEntry
  | (.error _, _) => []

/-- The investigations and the replies of a call. -/
def Label.book (rt : Runtime) (w : World) : Label → List BookEntry
  | .investigate config env limit useLock => investigationBook rt config env limit useLock w
  | .reply config env rawContent externalMsgId responder requestId =>
    let r := exec (handleReply rt config env rawContent externalMsgId responder requestId) w
    [{ investigated := none, before := w, committed := r.1.isOk, after := r.2 }]
  | _ => []

/-- The investigations and the replies of a run. -/
def book (rt : Runtime) : List Label → World → List BookEntry
  | [], _ => []
  | l :: ls, w => l.book rt w ++ book rt ls (exec (perform rt l) w).2

/--
No investigation and no reply that sets a marker fails at its commit, nor does the expiry of the
counter. A health check does no bookkeeping, so it has no place in such a run.
-/
def Label.Commits : Label → Prop
  | .investigate _ env _ _ => ∀ e, (env.items e).Commits
  | .reply config env .. => config.reinvestigationEnabled = true → env.faults .commit = none
  | .healthCheck .. => False
  | _ => True

theorem selectEvents_unspent {env : InvestigationRunEnv} {limit : Option ℤ} {useLock : Bool} :
    Respects Unspent (selectEvents rt config env limit useLock) := by
  unfold selectEvents
  split
  · exact respects_pure _
  · refine ((allowsClock_unspent.utcNow _).bind fun _ => (respects_redis _).bind fun _ =>
      respects_pure _).bind fun remaining => ?_
    split
    · exact respects_pure _
    · exact (respects_sqlLimit _).bind fun _ => (respects_fallible _).bind fun _ => respects_query _

theorem attempts_book {env : InvestigationRunEnv} {events : List ℕ} {w : World}
    (henv : ∀ e, (env.items e).Commits) :
    ∀ a ∈ (investigationLoop rt config env).attempts events w, (investigationEntry a).Fair ∧
      ∀ day, a.after.out.dailyCount day = a.before.out.dailyCount day +
        if (investigationEntry a).charges day then 1 else 0 := by
  refine Loop.attempts_forall (fun e w u w' hb => ?_) fun e w x w' hb => ?_
  · obtain ⟨hr, -⟩ | ⟨-, hspends, hday⟩ := investigateAndCount_books (henv e) hb
    · exact absurd rfl hr
    exact ⟨⟨nofun, fun e' he _ => Option.some.inj he ▸ hspends⟩, hday⟩
  · obtain ⟨-, hquiet⟩ | ⟨hr, -⟩ := investigateAndCount_books (henv e) hb
    · have hdaily : w'.out.dailyCount = w.out.dailyCount := (Prod.mk.inj hquiet).1
      refine ⟨⟨fun _ => hquiet, nofun⟩, fun day => ?_⟩
      exact congrFun hdaily day
    · cases hr

theorem Label.book_step {l : Label} (hl : l.Commits) (w : World) :
    (∀ day, (exec (perform rt l) w).2.out.dailyCount day =
      w.out.dailyCount day + (l.book rt w).countP (·.charges day)) ∧
      ∀ a ∈ l.book rt w, a.Fair := by
  cases hagent : l.startsAgent with
  | false =>
    have hdaily : (exec (perform rt l) w).2.out.dailyCount = w.out.dailyCount :=
      (perform_uncounted hagent w).dailyCount
    have hquiet (hbook : l.book rt w = []) : (∀ day, (exec (perform rt l) w).2.out.dailyCount day =
        w.out.dailyCount day + (l.book rt w).countP (·.charges day)) ∧
          ∀ a ∈ l.book rt w, a.Fair := by
      rw [hbook]
      exact ⟨fun day => congrFun hdaily day, List.forall_mem_nil _⟩
    cases l with
    | reply config env rawContent externalMsgId responder requestId =>
      refine ⟨fun day => congrFun hdaily day |>.trans ?_, fun a ha => ?_⟩
      · simp [Label.book, BookEntry.charges]
      · rcases hr : exec (handleReply rt config env rawContent externalMsgId responder requestId) w
          with ⟨x | r, w'⟩
        · obtain rfl : a = ⟨none, w, false, w'⟩ := by simpa [Label.book, hr, Except.isOk, Except.toBool] using ha
          exact ⟨fun _ => handleReply_books hl hr, nofun⟩
        · obtain rfl : a = ⟨none, w, true, w'⟩ := by simpa [Label.book, hr, Except.isOk, Except.toBool] using ha
          exact ⟨nofun, nofun⟩
    | investigate => cases hagent
    | healthCheck => cases hagent
    | _ => exact hquiet rfl
  | true =>
    cases l with
    | healthCheck => exact hl.elim
    | investigate config env limit useLock =>
      have hend : (exec (perform rt (.investigate config env limit useLock)) w).2 =
          (exec (investigationRun rt config env limit useLock) w).2 := by
        rw [perform, exec_map]
      rw [hend, investigationRun_end, Label.book, investigationBook]
      rcases hselect : exec (selectEvents rt config env limit useLock) w with ⟨x | events, w₁⟩
      · have hquiet : Unspent w w₁ := selectEvents_unspent.of_exec hselect
        exact ⟨fun day => congrFun (Prod.mk.inj hquiet).1 day, nofun⟩
      · have hquiet : Unspent w w₁ := selectEvents_unspent.of_exec hselect
        have hbook := @attempts_book rt config env events w₁ hl
        refine ⟨fun day => ?_, fun a ha => ?_⟩
        · have hcount := Loop.count_of_attempts (r := ({} : InvestigationRunResult))
            (f := fun w : World => w.out.dailyCount day)
            (p := fun a => (investigationEntry a).charges day) fun a ha => (hbook a ha).2 day
          rw [congrFun (Prod.mk.inj hquiet).1 day] at hcount
          rw [List.countP_map]
          exact hcount
        · obtain ⟨b, hb, rfl⟩ := List.mem_map.mp ha
          exact (hbook b hb).1
    | _ => cases hagent

/--
In every run of the system that starts with no counts and in which no bookkeeping is lost, the
counter of a day is the number of committed investigations of that day that are charged to it; a
committed investigation spends at most one unit or the marker of its event, and what is not
committed spends nothing.
-/
theorem budget_follows_commits {ls : List Label} {w₀ w : World}
    (hnew : ∀ day, w₀.out.dailyCount day = 0) (hls : ∀ l ∈ ls, l.Commits)
    (hrun : (system rt w₀).run ls w₀ = some w) :
    (∀ day, w.out.dailyCount day = (book rt ls w₀).countP (·.charges day)) ∧
      ∀ a ∈ book rt ls w₀, a.Fair := by
  have hbook : ∀ w₁, (system rt w₀).run ls w₁ = some w →
      (∀ day, w.out.dailyCount day = w₁.out.dailyCount day +
        (book rt ls w₁).countP (·.charges day)) ∧ ∀ a ∈ book rt ls w₁, a.Fair := by
    clear hrun
    induction ls with
    | nil =>
      rintro w₁ ⟨⟩
      exact ⟨fun _ => rfl, nofun⟩
    | cons l ls ih =>
      intro w₁ hrun
      obtain ⟨hday, hfair⟩ := @Label.book_step rt l (hls l List.mem_cons_self) w₁
      obtain ⟨hday', hfair'⟩ := ih (fun l' hl' => hls l' (List.mem_cons_of_mem _ hl')) _ hrun
      refine ⟨fun day => ?_, fun a ha => ?_⟩
      · rw [hday', hday, book, List.countP_append, Nat.add_assoc]
      · rcases List.mem_append.mp ha with ha | ha
        · exact hfair a ha
        · exact hfair' a ha
  obtain ⟨hday, hfair⟩ := hbook w₀ hrun
  exact ⟨fun day => by rw [hday, hnew, Nat.zero_add], hfair⟩

/-- Investigations whose commit fails. -/
def Label.investigateUncommitted (now : Time) : Label :=
  .investigate {} {
    budgetAt := now
    items := fun _ => {
      startedAt := now
      agent := { chat := fun _ _ => .error .external, clock := fun _ => now }
      finishedAt := now
      faults := fun point => if point = .commit then some .external else none } } none true

/-- A reply whose commit fails. -/
def Label.replyUncommitted (now : Time) (requestId : ℕ) : Label :=
  .reply {} {
    answeredAt := now
    faults := fun point => if point = .commit then some .external else none } "ok" none none
    (some requestId)

/-- The counter keeps the unit of an investigation that is rolled back, and Redis its marker. -/
theorem rolled_back_bookkeeping_stays :
    (∃ w, (system (sampleRuntime .increasing []) {}).run
        (investigatedRun.take 4 ++ [.investigateUncommitted (hours 3)]) {} = some w ∧
      w.out.dailyCount 0 = 1 ∧ w.db.investigations.length = 0) ∧
    ∃ w, (system (sampleRuntime .increasing []) {}).run
        (investigatedRun ++ [.reviewAll (hours 4), .replyUncommitted (hours 5) 0]) {} = some w ∧
      (w.out.skipBudget 0).isSome = true ∧ w.db.responses.length = 0 := by
  refine ⟨⟨_, rfl, ?_⟩, ⟨_, rfl, ?_⟩⟩
  · decide +kernel
  · decide +kernel

/-- One investigation is committed and its reply sets a marker. -/
theorem budget_follows_commits_replied :
    ∃ w, (system (sampleRuntime .increasing []) {}).run
        (investigatedRun ++ [.reviewAll (hours 4), .replyTo (hours 5) 0]) {} = some w ∧
      w.out.dailyCount 0 = 1 ∧ (w.out.skipBudget 0).isSome = true ∧
      w.out.dailyCount 0 = (book (sampleRuntime .increasing []) (investigatedRun ++
        [.reviewAll (hours 4), .replyTo (hours 5) 0]) {}).countP (·.charges 0) := by
  refine ⟨_, rfl, by decide +kernel, by decide +kernel, ?_⟩
  refine (budget_follows_commits (fun _ => rfl) (fun l hl => ?_) rfl).1 0
  simp only [investigatedRun, List.cons_append, List.nil_append, List.mem_cons, List.not_mem_nil,
    or_false] at hl
  rcases hl with rfl | rfl | rfl | rfl | rfl | rfl | rfl
  all_goals first | trivial | exact fun _ => ⟨rfl, rfl⟩ | exact fun _ => rfl

end Minsight

import Minsight.Foundation.Quota
import Minsight.System.Simulation

/-! # The daily budget of investigations

The daily counter is a quota. An investigation that does not fail uses one place of it, unless
its event is a probe or carries a skip marker.
-/

namespace Minsight

open Tx Session

variable {rt : Runtime} {config : InvestigationConfig} {tie : ℕ → ℕ}

/-- Nothing that concerns the budget changes while the clock passes. -/
structure Outside.Quiet (rt : Runtime) (o o' : Outside) : Prop where
  agentStarts : o'.agentStarts = o.agentStarts
  dailyCount : o'.dailyCount = o.dailyCount
  skipBudget : o'.skipBudget = o.skipBudget
  clock : rt.clock.Passes o.clock o'.clock

instance : Std.Refl (Outside.Quiet rt) where
  refl _ := ⟨rfl, rfl, rfl, .refl _ _⟩

instance : IsTrans Outside (Outside.Quiet rt) where
  trans _ _ _ h h' := ⟨h'.agentStarts.trans h.agentStarts, h'.dailyCount.trans h.dailyCount,
    h'.skipBudget.trans h.skipBudget, h.clock.trans h'.clock⟩

abbrev Quietly (rt : Runtime) : World → World → Prop := OnOut (Outside.Quiet rt)

theorem allowsClock_quietly : AllowsClock rt (Quietly rt) := fun _ _ =>
  ⟨rfl, rfl, rfl, (rt.clock.reading_follows _ _).passes⟩

theorem allowsAgent_quietly (investigationId eventId : ℕ) :
    AllowsAgent rt (Quietly rt) investigationId eventId where
  clock := allowsClock_quietly
  investigation _ _ := respectsOut_modify _
  message _ := respectsOut_modify _
  toolCall _ := respectsOut_modify _
  correlate _ _ := respectsOut_modify _
  observe _ := respectsOut_setRedis fun _ => ⟨rfl, rfl, rfl, .refl _ _⟩
  fail := failTransaction_respects fun w => Std.Refl.refl (r := Outside.Quiet rt) w.out

theorem startInvestigation_quietly {env : InvestigationEnv} {e : ℕ} :
    Respects (Quietly rt) (startInvestigation rt config env e) :=
  (allowsClock_quietly.utcNow _).bind fun _ => (respects_query _).bind fun _ =>
    (respectsOut_modify _).bind fun _ => (respects_fallible _).bind fun _ =>
    (respectsOut_modify _).bind fun _ => (respects_fallible _).bind fun _ =>
    (respects_fallible _).bind fun _ => respects_pure _

theorem logAgentStart_ok {shown : Time} {e start : ℕ} {w w' : World}
    (h : exec (logAgentStart rt shown e) w = (.ok start, w')) :
    start = w.out.agentStarts.length ∧ w'.db = w.db ∧ ∃ a : AgentStart, a.eventId = e ∧
      a.counted = false ∧ rt.clock.Follows w.out.clock a.startedAt ∧ a.probe = eventIsProbe w.db e ∧
      a.exempt = hasSkipMarker w.out e a.startedAt ∧
      w'.out = { w.out with clock := a.startedAt, agentStarts := w.out.agentStarts ++ [a] } := by
  simp only [logAgentStart, exec_utcNow_bind, exec_query_bind, exec_redis_bind,
    exec_setRedis_bind, exec_pure, Prod.mk.injEq, Except.ok.injEq] at h
  obtain ⟨rfl, rfl⟩ := h
  let now := rt.clock.reading w.out.clock shown
  let entry : AgentStart := {
    eventId := e
    startedAt := now
    probe := eventIsProbe w.db e
    exempt := hasSkipMarker w.out e now }
  exact ⟨rfl, rfl, entry, rfl, rfl, rt.clock.reading_follows _ _, rfl, rfl, rfl⟩

structure Started (rt : Runtime) (e : ℕ) (w w' : World) (start : ℕ) (a : AgentStart) :
    Prop where
  index : start = w.out.agentStarts.length
  log : w'.out.agentStarts = w.out.agentStarts ++ [a]
  eventId : a.eventId = e
  uncounted : a.counted = false
  dailyCount : w'.out.dailyCount = w.out.dailyCount
  begins : rt.clock.Passes w.out.clock a.startedAt
  passes : rt.clock.Passes a.startedAt w'.out.clock
  probe : a.probe = eventIsProbe w'.db e
  exempt : a.exempt = hasSkipMarker w'.out e a.startedAt

theorem eventIsProbe_of_intake {db db' : Db} (h : db'.intake = db.intake) (e : ℕ) :
    eventIsProbe db' e = eventIsProbe db e := by
  simp only [Db.intake, Prod.mk.injEq] at h
  simp only [eventIsProbe, h]

theorem investigateEvent_started {env : InvestigationEnv} {e start : ℕ} {w w' : World}
    (h : exec (investigateEvent rt config env tie e) w = (.ok start, w')) :
    ∃ a, Started rt e w w' start a := by
  obtain ⟨i, w₁, hstart, h⟩ := exec_bind_ok.mp h
  have q₁ : Quietly rt w w₁ := startInvestigation_quietly.of_exec hstart
  rw [exec_query_bind] at h
  split at h
  · simp at h
  · obtain ⟨_, w₂, hsop, h⟩ := exec_bind_ok.mp h
    have q₂ : Quietly rt w₁ w₂ := (respectsOut_modify _).of_exec hsop
    obtain ⟨_, w₃, hlog, h⟩ := exec_bind_ok.mp h
    obtain ⟨rfl, hdb₃, a, heventId, hcounted, hbegin, hprobe, hexempt, hout₃⟩ := logAgentStart_ok hlog
    obtain ⟨loopResult, w₄, hagent, h⟩ := exec_bind_ok.mp h
    have q₄ : Quietly rt w₃ w₄ := (agentRun_respects (allowsAgent_quietly _ _)).of_exec hagent
    have k₄ : Keeps Db.intake w₃ w₄ :=
      (agentRun_respects (allowsAgent_intake _ _)).of_exec hagent
    simp only [exec_statement_bind_ok, exec_fallible_bind_ok, exec_query_bind, exec_utcNow_bind,
      exec_modify_bind, exec_pure, Prod.mk.injEq, Except.ok.injEq] at h
    obtain ⟨-, -, -, rfl, rfl⟩ := h
    have q₁₂ : Outside.Quiet rt w.out w₂.out := IsTrans.trans (r := Outside.Quiet rt) _ _ _ q₁ q₂
    have hfinish := rt.clock.reading_follows w₄.out.clock env.finishedAt
    obtain ⟨hstarts, hdaily, hmarker, hclock⟩ := q₄
    rw [hout₃] at hstarts hdaily hmarker hclock
    refine ⟨a, congrArg List.length q₁₂.agentStarts, ?_, heventId, hcounted, ?_,
      q₁₂.clock.trans hbegin.passes, hclock.trans hfinish.passes, ?_, ?_⟩
    · exact hstarts.trans (by rw [q₁₂.agentStarts])
    · exact hdaily.trans q₁₂.dailyCount
    · rw [hprobe, ← hdb₃]
      exact (eventIsProbe_of_intake k₄ e).symm
    · rw [hexempt]
      simp only [hasSkipMarker, hmarker]

def countedOn (starts : List AgentStart) (day : ℤ) : ℕ :=
  starts.countP fun a => a.counted && utcDay a.startedAt == day

def Outside.quota (o : Outside) : Quota where
  today := utcDay o.clock
  begun := countedOn o.agentStarts
  counter := o.dailyCount

theorem utcDay_le {t t' : Time} (h : t ≤ t') : utcDay t ≤ utcDay t' :=
  Int.ediv_le_ediv (by decide) h

theorem ClockKind.Passes.le {k : ClockKind} (hk : k ≠ .free) {t t' : Time} (h : k.Passes t t') :
    t ≤ t' := by
  cases k with
  | free => exact absurd rfl hk
  | nondecreasing => exact h
  | increasing => exact h

abbrev Idles : World → World → Prop := OnOut fun o o' => Quota.Idle o.quota o'.quota

instance : Std.Refl fun o o' : Outside => Quota.Idle o.quota o'.quota where
  refl o := .refl o.quota

instance : IsTrans Outside fun o o' => Quota.Idle o.quota o'.quota where
  trans _ _ _ h h' := ⟨h.today.trans h'.today, h'.begun.trans h.begun, h'.counter.trans h.counter⟩

variable (hclock : rt.clock ≠ .free)

include hclock

theorem idles_of_quietly {w w' : World} (h : Quietly rt w w') : Idles w w' where
  today := utcDay_le (h.clock.le hclock)
  begun := congrArg countedOn h.agentStarts
  counter := h.dailyCount

theorem idles_of_leaves {β : Type} {f : Db → β} {w w' : World} (h : Leaves rt f w w') :
    Idles w w' where
  today := utcDay_le (h.clock.le hclock)
  begun := congrArg countedOn h.agentStarts
  counter := h.dailyCount

omit hclock in
theorem countedOn_append (starts : List AgentStart) (a : AgentStart) (day : ℤ) :
    countedOn (starts ++ [a]) day =
      countedOn starts day + if a.counted && utcDay a.startedAt == day then 1 else 0 := by
  simp [countedOn, List.countP_append, List.countP_singleton]

theorem logAgentStart_idles {shown : Time} {e : ℕ} : Respects Idles (logAgentStart rt shown e) := by
  intro w
  rcases h : exec (logAgentStart rt shown e) w with ⟨_ | start, w'⟩
  · cases h
  · obtain ⟨-, -, a, -, hcounted, hbegin, -, -, hout⟩ := logAgentStart_ok h
    have hnow : w'.out.clock = a.startedAt := congrArg Outside.clock hout
    have hdaily : w'.out.dailyCount = w.out.dailyCount := by rw [hout]
    refine ⟨utcDay_le (hnow ▸ hbegin.passes.le hclock), ?_, hdaily⟩
    funext day
    change countedOn w'.out.agentStarts day = countedOn w.out.agentStarts day
    rw [show w'.out.agentStarts = w.out.agentStarts ++ [a] from congrArg Outside.agentStarts hout,
      countedOn_append, hcounted]
    simp

theorem investigateEvent_idles {env : InvestigationEnv} {e : ℕ} :
    Respects Idles (investigateEvent rt config env tie e) := by
  have quiet {w w' : World} : Quietly rt w w' → Idles w w' := idles_of_quietly hclock
  refine (startInvestigation_quietly.mono fun _ _ => quiet).bind fun _ =>
    (respects_query _).bind fun db => ?_
  split
  · exact respects_raise _
  · exact (respectsOut_modify _).bind fun _ => (logAgentStart_idles hclock).bind fun _ =>
      ((agentRun_respects (allowsAgent_quietly _ _)).mono fun _ _ => quiet).bind fun _ =>
      (respects_statement _).bind fun _ => (respects_query _).bind fun _ =>
      ((allowsClock_quietly.utcNow _).mono fun _ _ => quiet).bind fun _ =>
      (respects_fallible _).bind fun _ => (respectsOut_modify _).bind fun _ => respects_pure _

abbrev Uncounted (rt : Runtime) : World → World → Prop := Leaves rt fun _ => ()

omit hclock in
theorem consumeSkipBudget_uncounted {shown : Time} {faults : InvestigationPoint → Option Exn}
    {e : ℕ} : Respects (Uncounted rt) (consumeSkipBudget rt shown faults e) := by
  refine (leaves_utcNow _).bind fun _ => (respects_fallible _).bind fun _ =>
    (respects_redis _).bind fun marked => ?_
  split
  · exact (respects_fallible _).bind fun _ =>
      Respects.bind (leaves_setRedis fun _ => ⟨rfl, rfl, rfl⟩) fun _ => respects_pure _
  · exact respects_pure _

/-- The counter is advanced for the start at a position of the log. -/
structure Counts (rt : Runtime) (start : ℕ) (now : Time) (w w' : World) : Prop where
  follows : rt.clock.Follows w.out.clock now
  clock : w'.out.clock = now
  dailyCount : w'.out.dailyCount =
    Function.update w.out.dailyCount (utcDay now) (w.out.dailyCount (utcDay now) + 1)
  agentStarts : w'.out.agentStarts =
    w.out.agentStarts.modify start fun a => { a with counted := true }

omit hclock in
theorem incrementDailyCount_cases {shown : Time} {faults : InvestigationPoint → Option Exn}
    {start : ℕ} {w w' : World} {r : Except Exn Unit}
    (h : exec (incrementDailyCount rt shown faults start) w = (r, w')) :
    (∃ x, r = .error x ∧ faults .counterIncr = some x ∧ Uncounted rt w w') ∨
      ∃ now, Counts rt start now w w' := by
  simp only [incrementDailyCount, exec_utcNow_bind] at h
  cases hincr : faults .counterIncr with
  | some x =>
    rw [hincr] at h
    obtain ⟨rfl, rfl⟩ := Prod.mk.inj h
    exact .inl ⟨x, rfl, rfl, rfl, rfl, rfl, (rt.clock.reading_follows _ _).passes⟩
  | none =>
    rw [hincr, show (fallible none : Session Unit) = pure () from rfl, exec_bind_pure,
      exec_redis_bind, exec_setRedis_bind] at h
    split at h
    · obtain rfl := exec_fallible_snd.symm.trans (congrArg Prod.snd h)
      exact .inr ⟨_, rt.clock.reading_follows _ _, rfl, rfl, rfl⟩
    · obtain rfl := (Prod.mk.inj h).2
      exact .inr ⟨_, rt.clock.reading_follows _ _, rfl, rfl, rfl⟩

def Counted (rt : Runtime) (start : ℕ) (w w' : World) : Prop :=
  Uncounted rt w w' ∨ ∃ w₁ now, Uncounted rt w w₁ ∧ Counts rt start now w₁ w'

omit hclock in
theorem counted_of_uncounted {α : Type} {start : ℕ} {m : Session α}
    (hm : Respects (Uncounted rt) m) : Respects (Counted rt start) m := fun w => .inl (hm w)

omit hclock in
theorem counted_bind {α β : Type} {start : ℕ} {m : Session α} {f : α → Session β}
    (hm : Respects (Uncounted rt) m) (hf : ∀ a, Respects (Counted rt start) (f a)) :
    Respects (Counted rt start) (m >>= f) := by
  intro w
  rcases h : exec m w with ⟨x | a, w₁⟩
  · rw [exec_bind_of_error h]
    exact .inl (hm.of_exec h)
  · rw [exec_bind_of_ok h]
    have hw : Uncounted rt w w₁ := hm.of_exec h
    rcases hf a w₁ with hrest | ⟨w₂, now, hrest, hcounts⟩
    · exact .inl (IsTrans.trans (r := Uncounted rt) _ _ _ hw hrest)
    · exact .inr ⟨w₂, now, IsTrans.trans (r := Uncounted rt) _ _ _ hw hrest, hcounts⟩

omit hclock in
theorem incrementDailyCount_counted {shown : Time} {faults : InvestigationPoint → Option Exn}
    {start : ℕ} {o : Option Exn} :
    Respects (Counted rt start)
      (incrementDailyCount rt shown faults start >>= fun _ => fallible o) := by
  intro w
  rcases h : exec (incrementDailyCount rt shown faults start) w with ⟨r, w₁⟩
  have hend : (exec (incrementDailyCount rt shown faults start >>= fun _ => fallible o) w).2 = w₁ := by
    cases r with
    | error x => rw [exec_bind_of_error h]
    | ok u => rw [exec_bind_of_ok h, exec_fallible_snd]
  rw [hend]
  rcases incrementDailyCount_cases h with ⟨x, -, -, hquiet⟩ | ⟨now, hcounts⟩
  · exact .inl hquiet
  · exact .inr ⟨w, now, Std.Refl.refl w, hcounts⟩

omit hclock in
/-- An investigation of a run fails, or it returns and at most its own start is counted. -/
theorem investigateAndCount_cases (rt : Runtime) (config : InvestigationConfig) (tie : ℕ → ℕ)
    (env : InvestigationEnv) (e : ℕ) (w : World) :
    (∃ x, exec (investigateEvent rt config env tie e) w =
      (.error x, (exec (investigateAndCount rt config env tie e) w).2)) ∨
      ∃ start w₁, exec (investigateEvent rt config env tie e) w = (.ok start, w₁) ∧
        Counted rt start w₁ (exec (investigateAndCount rt config env tie e) w).2 := by
  rcases h : exec (investigateEvent rt config env tie e) w with ⟨x | start, w₁⟩
  · refine .inl ⟨x, ?_⟩
    rw [investigateAndCount, exec_bind_of_error h]
  · refine .inr ⟨start, w₁, rfl, ?_⟩
    rw [investigateAndCount, exec_bind_of_ok h]
    refine counted_bind (respects_fallible _) (fun _ => counted_bind (respects_query _)
      fun probe => ?_) w₁
    split
    · refine counted_bind consumeSkipBudget_uncounted fun skipped => ?_
      split
      · exact incrementDailyCount_counted
      · exact counted_of_uncounted (respects_fallible _)
    · exact counted_of_uncounted (respects_fallible _)

theorem use_of_counts {e start : ℕ} {w w₁ w₂ w' : World} {a : AgentStart} {now : Time}
    (hs : Started rt e w w₁ start a) (hu : Uncounted rt w₁ w₂) (hc : Counts rt start now w₂ w') :
    Quota.Use (utcDay a.startedAt) (utcDay now) w.out.quota w'.out.quota where
  begins := utcDay_le (hs.begins.le hclock)
  counted := utcDay_le ((hs.passes.trans (hu.clock.trans hc.follows.passes)).le hclock)
  today := (congrArg utcDay hc.clock).ge
  counter := by
    have hdaily : w₂.out.dailyCount = w.out.dailyCount := hu.dailyCount.trans hs.dailyCount
    have hcount := hc.dailyCount
    rw [hdaily] at hcount
    exact hcount
  begun := by
    have hlog : w'.out.agentStarts = w.out.agentStarts ++ [{ a with counted := true }] := by
      rw [hc.agentStarts, hu.agentStarts, hs.log, hs.index, Rows.update_insert]
    funext day
    change countedOn w'.out.agentStarts day = _
    rw [hlog, countedOn_append]
    by_cases hday : day = utcDay a.startedAt
    · subst hday
      simp [Outside.quota]
    · simp [Outside.quota, hday, Ne.symm hday]

theorem investigateAndCount_uses (env : InvestigationEnv) (e : ℕ) {w w' : World}
    {r : Except Exn Unit} (h : exec (investigateAndCount rt config env tie e) w = (r, w')) :
    Idles w w' ∨ ∃ s c, Quota.Use s c w.out.quota w'.out.quota := by
  have hcases := investigateAndCount_cases rt config tie env e w
  rw [h] at hcases
  rcases hcases with ⟨x, hx⟩ | ⟨start, w₁, hinv, hrest⟩
  · exact .inl ((investigateEvent_idles hclock).of_exec hx)
  · rcases hrest with hrest | ⟨w₂, now, hrest, hcounts⟩
    · have hidle : Idles w w₁ := (investigateEvent_idles hclock).of_exec hinv
      exact .inl (IsTrans.trans (r := Idles) _ _ _ hidle (idles_of_leaves hclock hrest))
    · obtain ⟨a, hs⟩ := investigateEvent_started hinv
      exact .inr ⟨_, _, use_of_counts hclock hs hrest hcounts⟩

omit hclock in
theorem room_of_uses {b k : ℕ} {w w' : World} (h : Quota.Room b (k + 1) w.out.quota)
    (hu : Idles w w' ∨ ∃ s c, Quota.Use s c w.out.quota w'.out.quota) :
    Quota.Room b k w'.out.quota := by
  rcases hu with hidle | ⟨s, c, huse⟩
  · exact (h.idle hidle).mono (Nat.le_succ k)
  · exact h.use huse

abbrev KeepsWithin (b : ℕ) : World → World → Prop :=
  OnOut fun o o' => Quota.Within b o.quota → Quota.Within b o'.quota

omit hclock in
theorem Idles.keepsWithin {b : ℕ} {w w' : World} (h : Idles w w') : KeepsWithin b w w' :=
  fun hw => hw.idle h

theorem investigationLoop_within {env : InvestigationRunEnv} {b : ℕ} {events : List ℕ}
    {result : InvestigationRunResult} {w : World} (h : Quota.Room b events.length w.out.quota) :
    Quota.Within b (exec ((investigationLoop rt config env).run events result) w).2.out.quota := by
  refine Loop.run_rule (fun (is : List ℕ) (_ : InvestigationRunResult) (w : World) =>
    Quota.Room b is.length w.out.quota) (fun w => Quota.Within b w.out.quota) ?_ ?_ ?_ h
  · intro e es r w u w' hroom hbody
    exact room_of_uses hroom (investigateAndCount_uses hclock _ _ hbody)
  · intro e es r w x w' hroom hbody
    -- a rollback leaves the log and the counters as they are
    have huse := investigateAndCount_uses hclock (env.items e) e hbody
    exact room_of_uses hroom huse
  · intro es r w hroom
    exact hroom.toWithin

omit hclock in
theorem length_pickEvents_le (tie : ℕ → ℕ) (n : ℕ) (db : Db) :
    (pickEvents tie n db).length ≤ n := by
  rw [pickEvents, List.length_map]
  exact Rows.length_orderLimit_le

theorem investigationRun_within {env : InvestigationRunEnv} {limit : Option ℤ} {useLock : Bool} :
    Respects (KeepsWithin config.dailyEventBudget.toNat)
      (investigationRun rt config env limit useLock) := by
  intro w
  unfold investigationRun
  split
  · exact id
  · let now := rt.clock.reading w.out.clock env.budgetAt
    let w₁ : World := { w with out := { w.out with clock := now } }
    have hread : exec (budgetRemaining rt env.budgetAt config.dailyEventBudget) w =
      (.ok (max 0 (config.dailyEventBudget - w.out.dailyCount (utcDay now))), w₁) := rfl
    have hnow : Idles w w₁ :=
      ⟨utcDay_le ((rt.clock.reading_follows _ _).passes.le hclock), rfl, rfl⟩
    refine rel_bind (hread ▸ hnow.keepsWithin) fun remaining w₂ h₂ => ?_
    obtain ⟨rfl, rfl⟩ : _ = remaining ∧ w₁ = w₂ := by simpa [hread] using h₂
    split
    · exact id
    · rename_i hpos
      refine rel_bind (respects_sqlLimit _ w₁) fun n w₂ hlimit => ?_
      obtain ⟨-, rfl, rfl⟩ := exec_sqlLimit_ok.mp hlimit
      refine rel_bind (respects_fallible _ w₁) fun _ w₂ hpick => ?_
      obtain ⟨-, rfl⟩ := exec_fallible_ok.mp hpick
      rw [exec_query_bind]
      intro hwithin
      refine investigationLoop_within hclock ((Quota.Within.room hwithin ?_).mono
        (length_pickEvents_le _ _ _))
      have hcounter : w₁.out.quota.counter w₁.out.quota.today =
        w.out.dailyCount (utcDay now) := rfl
      rw [hcounter]
      omega

omit hclock in
theorem aggregationRun_uncounted {config : AggregationConfig} {env : AggregationRunEnv}
    {limit : Option ℤ} {useLock : Bool} :
    Respects (Uncounted rt) (aggregationRun rt config env limit useLock) := by
  have event {env : AggregationEnv} {tie : ℕ → ℕ} {alert : Alert} {dims : AggregationDimensions} :
      Respects (Uncounted rt) (eventFor rt env tie alert dims) := by
    refine (respects_fallible _).bind fun _ => (respects_query _).bind fun events => ?_
    split
    · exact respects_pure _
    · exact (leaves_utcNow _).bind fun _ => (respects_fallible _).bind fun _ =>
        Respects.bind (leaves_modify fun _ => rfl) fun _ => respects_pure _
  have one {env : AggregationEnv} {tie : ℕ → ℕ} {item : PendingAlert} :
      Respects (Uncounted rt) (aggregateOne rt config env tie item) := by
    refine (leaves_utcNow _).bind fun now => ?_
    split
    · exact respects_raise _
    · refine event.bind fun target => (respects_fallible _).bind fun _ =>
        (respects_query _).bind fun _ => (respects_query _).bind fun linked => ?_
      split
      · exact respects_raise _
      · exact Respects.bind (leaves_modify fun _ => rfl) fun _ => respects_pure _
  unfold aggregationRun
  split
  · exact respects_pure _
  · exact (respects_sqlLimit _).bind fun _ => (respects_fallible _).bind fun _ =>
      (respects_query _).bind fun _ => leaves_loop (fun _ => one.bind fun _ =>
        (respects_fallible _).bind fun _ => respects_pure _) rfl

theorem healthCheckRun_idles {config : HealthCheckConfig} {env : HealthCheckRunEnv}
    {scenarios : List HealthCheckScenario} {useLock : Bool} :
    Respects Idles (healthCheckRun rt config env scenarios useLock) := by
  have idle {α β : Type} {f : Db → β} {m : Session α} (h : Respects (Leaves rt f) m) :
      Respects Idles m := h.mono fun _ _ => idles_of_leaves hclock
  have triage {env : TriageRunEnv} :
      Respects (Leaves rt Db.files) (triageRun rt config.triage env (some 50) false) :=
    triageRun_leaves fun _ _ _ _ _ => rfl
  have probe {env : HealthCheckEnv} {alertId : ℕ} :
      Respects Idles (investigateProbe rt config env alertId) := by
    refine (respects_query _).bind fun links => ?_
    split
    · exact respects_pure _
    · exact transaction_respectsOut ((investigateEvent_idles hclock).bind fun _ =>
        respects_fallible _)
  have one (scenario : HealthCheckScenario) : Respects Idles
      (healthCheckRunOne rt config (env.items scenario.name) scenario) := by
    refine (idle injectProbe_leaves).bind fun _ => ?_
    unfold runToStage
    split
    · exact respects_pure _
    · refine (idle triage).bind fun _ => ?_
      split
      · exact respects_pure _
      · refine (idle aggregationRun_uncounted).bind fun _ => ?_
        split
        · exact respects_pure _
        · exact probe
  unfold healthCheckRun
  split
  · exact respects_pure _
  · exact Loop.respects_run (fun _ _ _ _ hb => (one _).of_exec hb)
      fun _ _ _ _ hb => (one _).of_exec hb

/-- Investigation runs have this daily budget. -/
def Label.BudgetedBy (budget : ℤ) : Label → Prop
  | .investigate config .. => config.dailyEventBudget = budget
  | _ => True

def Label.startsAgent : Label → Bool
  | .investigate .. => true
  | .healthCheck .. => true
  | _ => false

omit hclock in
/-- Every call that starts no agent loop leaves the log and the daily counter alone. -/
theorem perform_uncounted {l : Label} (hl : l.startsAgent = false) :
    Respects (Uncounted rt) (perform rt l) := by
  have quiet {α β : Type} {f : Db → β} {m : Session α} (h : Respects (Leaves rt f) m) :
      Respects (Uncounted rt) m := h.mono fun _ _ hw => hw.mono fun _ => rfl
  cases l with
  | configure settings => exact leaves_modify fun _ => rfl
  | ingest env source maxBatches useLock => exact (quiet runForSource_leaves).map _
  | triage config env limit useLock =>
    have htriage : Respects (Leaves rt Db.files) (triageRun rt config env limit useLock) :=
      triageRun_leaves fun _ _ _ _ _ => rfl
    exact (quiet htriage).map _
  | aggregate config env limit useLock => exact aggregationRun_uncounted.map _
  | auditSample enabled env limit =>
    have hsample : Respects (Leaves rt Db.files) (auditSampleRun enabled env limit) :=
      auditSampleRun_leaves fun _ _ => rfl
    exact (quiet hsample).map _
  | investigate config env limit useLock => cases hl
  | review config env limit useLock => exact (quiet humanReviewRun_leaves).map _
  | reply config env rawContent externalMsgId responder requestId =>
    exact (quiet handleReply_leaves).map _
  | cancel commitFault requestId => exact (quiet cancelRequest_leaves).map _
  | settle config env limit useLock => exact (quiet assetPipelineRun_leaves).map _
  | confirm now commitFault recordId action by_ => exact (quiet decideDisposition_leaves).map _
  | reject now commitFault recordId => exact (quiet decideDisposition_leaves).map _
  | healthCheck config env scenarios useLock => cases hl

theorem perform_within {budget : ℤ} {l : Label} (hl : l.BudgetedBy budget) :
    Respects (KeepsWithin budget.toNat) (perform rt l) := by
  cases hagent : l.startsAgent with
  | false =>
    exact (perform_uncounted hagent).mono fun _ _ hw => (idles_of_leaves hclock hw).keepsWithin
  | true =>
    cases l with
    | investigate config env limit useLock =>
      obtain rfl : config.dailyEventBudget = budget := hl
      exact (investigationRun_within hclock).map _
    | healthCheck config env scenarios useLock =>
      exact ((healthCheckRun_idles hclock).mono fun _ _ h => h.keepsWithin).map _
    | _ => cases hagent

omit hclock in
theorem hasSkipMarker_earlier {o o' : Outside} {e : ℕ} {t t' : Time}
    (ho : o'.skipBudget = o.skipBudget) (ht : t ≤ t') (h : hasSkipMarker o' e t' = true) :
    hasSkipMarker o e t = true := by
  simp only [hasSkipMarker, ho] at h ⊢
  split at h
  · exact decide_eq_true (ht.trans_lt (of_decide_eq_true h))
  · cases h

omit hclock in
theorem consumeSkipBudget_marked {shown : Time} {faults : InvestigationPoint → Option Exn}
    {e : ℕ} {w w' : World} (h : exec (consumeSkipBudget rt shown faults e) w = (.ok true, w')) :
    hasSkipMarker w.out e (rt.clock.reading w.out.clock shown) = true := by
  rw [consumeSkipBudget, exec_utcNow_bind, exec_fallible_bind_ok, exec_redis_bind] at h
  obtain ⟨-, h⟩ := h
  split at h
  · assumption
  · rename_i hmarked
    simp only [exec_pure, Prod.mk.injEq, Except.ok.injEq] at h
    exact absurd h.1 hmarked

/-- The start of an investigation that does not fail is counted, unless it is exempt. -/
theorem completed_start_counted {env : InvestigationEnv} {e : ℕ} {w w' : World}
    (h : exec (investigateAndCount rt config env tie e) w = (.ok (), w')) :
    ∃ a, w'.out.agentStarts = w.out.agentStarts ++ [a] ∧ a.eventId = e ∧
      (a.probe = false → a.exempt = false → a.counted = true) := by
  obtain ⟨start, w₁, hinv, h⟩ := exec_bind_ok.mp h
  obtain ⟨a, hs⟩ := investigateEvent_started hinv
  rw [exec_fallible_bind_ok, exec_query_bind] at h
  cases hprobe : eventIsProbe w₁.db e with
  | true =>
    simp only [hprobe, Bool.not_true, Bool.false_eq_true, if_false] at h
    obtain ⟨-, rfl⟩ := exec_fallible_ok.mp h.2
    exact ⟨a, hs.log, hs.eventId, fun hp => absurd (hs.probe.trans hprobe) (by simp [hp])⟩
  | false =>
    simp only [hprobe, Bool.not_false, if_true] at h
    obtain ⟨skipped, w₂, hskip, h⟩ := exec_bind_ok.mp h.2
    have hquiet : Uncounted rt w₁ w₂ := consumeSkipBudget_uncounted.of_exec hskip
    cases skipped with
    | true =>
      simp only [Bool.not_true, Bool.false_eq_true, if_false] at h
      obtain ⟨-, rfl⟩ := exec_fallible_ok.mp h
      refine ⟨a, hquiet.agentStarts.trans hs.log, hs.eventId, fun _ hexempt => ?_⟩
      -- the marker was there when the loop was started
      have hmarked := consumeSkipBudget_marked hskip
      have hle : a.startedAt ≤ rt.clock.reading w₁.out.clock env.markerAt :=
        (hs.passes.trans (rt.clock.reading_follows _ _).passes).le hclock
      have hearlier := hasSkipMarker_earlier rfl hle hmarked
      rw [← hs.exempt, hexempt] at hearlier
      cases hearlier
    | false =>
      simp only [Bool.not_false, if_true] at h
      obtain ⟨_, w₃, hcount, h⟩ := exec_bind_ok.mp h
      obtain ⟨-, rfl⟩ := exec_fallible_ok.mp h
      obtain ⟨x, hraised, -⟩ | ⟨now, hcounts⟩ := incrementDailyCount_cases hcount
      · cases hraised
      refine ⟨{ a with counted := true }, ?_, hs.eventId, fun _ _ => rfl⟩
      rw [hcounts.agentStarts, hquiet.agentStarts, hs.log, hs.index, Rows.update_insert]

/--
While investigations run under one budget and the clock does not go back, no more starts of
the agent loop than the budget allows are counted for one day; and the start of every
investigation that does not fail is counted, unless its event is a probe or exempt.
-/
theorem counted_starts_within_budget {budget : ℤ} {w : World}
    (h : (system rt {}).ReachableBy (fun _ l => l.BudgetedBy budget) w) :
    (∀ day, (w.out.agentStarts.countP fun a => a.counted && utcDay a.startedAt == day) ≤
      budget.toNat) ∧
      ∀ config env tie e w', exec (investigateAndCount rt config env tie e) w = (.ok (), w') →
        ∃ a, w'.out.agentStarts = w.out.agentStarts ++ [a] ∧ a.eventId = e ∧
          (a.probe = false → a.exempt = false → a.counted = true) := by
  refine ⟨fun day => ?_, fun _ _ _ _ _ => completed_start_counted hclock⟩
  have hinit : Quota.Within budget.toNat (Outside.quota {}) :=
    ⟨fun _ => Nat.zero_le _, fun _ _ => Nat.zero_le _, fun _ _ => rfl⟩
  refine (h.invariant (I := fun w => Quota.Within budget.toNat w.out.quota) hinit
    fun w l w' hw hl hstep => ?_).bound day
  obtain rfl := Option.some.inj hstep
  exact perform_within hclock hl w hw

omit hclock

/-- Investigations with a budget of one, in which a statement fails after the agent loop. -/
def Label.investigateInVain (now : Time) : Label :=
  .investigate { dailyEventBudget := 1 } {
    budgetAt := now
    items := fun _ => {
      startedAt := now
      agent := { chat := fun _ _ => .error .external, clock := fun _ => now }
      finishedAt := now
      faults := fun point => if point = .refresh then some .external else none } } none true

/-- The loop is started for the same event in both runs of the day, and no start is counted. -/
theorem failing_starts_exceed_budget :
    ∃ w, (system (sampleRuntime .increasing []) {}).run
        (investigatedRun.take 4 ++ [.investigateInVain (hours 3), .investigateInVain (hours 4)])
        {} = some w ∧
      (w.out.agentStarts.countP fun a =>
        !a.probe && !a.exempt && utcDay a.startedAt == 0) = 2 := by
  refine ⟨_, rfl, ?_⟩
  decide +kernel

theorem counted_starts_within_budget_investigated :
    ∃ w, (system (sampleRuntime .increasing []) {}).run investigatedRun {} = some w ∧
      w.out.agentStarts.map (·.counted) = [true] ∧
      (w.out.agentStarts.countP fun a => a.counted && utcDay a.startedAt == 0) ≤ 200 := by
  have hrun : (system (sampleRuntime .increasing []) {}).run investigatedRun {} = some _ := rfl
  refine ⟨_, hrun, by decide +kernel, ?_⟩
  have hreach := System.reachableBy_of_run (System.runsBy_of_labels
    (P := fun l => l.BudgetedBy 200) fun l hl => ?_) hrun
  · exact (counted_starts_within_budget (by decide) hreach).1 0
  · simp only [investigatedRun, List.mem_cons, List.not_mem_nil, or_false] at hl
    rcases hl with rfl | rfl | rfl | rfl | rfl <;> trivial

end Minsight

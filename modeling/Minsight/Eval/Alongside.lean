import Minsight.Eval.Runner

/-! # Regression runs beside production

Without a regression run the tables and the live investigations would be as they are, as long as
every case has the mock model and nothing looks at the functions while a case has replaced them.
-/

namespace Minsight.Regression

open Tx

section

variable {int : String → Option ℤ} {float : String → Option ℚ}

/-- Every value that `build_regression_context` converts has a type it accepts. -/
def buildable (int : String → Option ℤ) (float : String → Option ℚ) (payload : Json) : Bool :=
  payload.isObj
    && ["queue_priority", "severity"].all (fun key =>
      (payload.get? key).elim true fun value => (intOf int value).isOk)
    && ["risk_score", "triage_rule_score"].all (fun key =>
      (payload.get? key).elim true fun value => (floatOf float value).isOk)
    && ["alert_category", "host_name", "user_name", "rule_id", "rule_name", "src_ip",
      "triage_route"].all (fun key => (optionalText (payload.get? key)).isOk)
    && (optionalText ((payload.get? "title").filter Json.truthy)).isOk

theorem intOf_int (int : String → Option ℤ) (n : ℤ) : intOf int (.int n) = .ok n := rfl

theorem floatOf_int (float : String → Option ℚ) (n : ℤ) (h : n.natAbs ≤ 100) :
    floatOf float (.int n) = .ok (n : ℚ) := by
  have hlimit : 100 < floatLimit := by decide +kernel
  rw [floatOf, if_pos (lt_of_le_of_lt h hlimit)]

theorem ok_getD {α : Type} {f : Json → Except Exn α} {value : Option Json} {default : Json}
    {a : α} (hdefault : f default = .ok a)
    (h : (value.elim true fun v => (f v).isOk) = true) :
    ∃ b, f (value.getD default) = .ok b := by
  cases value with
  | none => exact ⟨a, hdefault⟩
  | some v => exact ok_of_isOk h

theorem build_of_buildable {payload : Json} (rt : Runtime) (now : Time) (name : String)
    (h : buildable int float payload = true) :
    ∃ context, buildRegressionContext rt int float now name payload = .ok context := by
  simp only [buildable, List.all_cons, List.all_nil, Bool.and_true, Bool.and_eq_true] at h
  obtain ⟨⟨⟨⟨hobj, hpriority, hseverity⟩, hrisk, hscore⟩, hcategory, hhost, huser, hruleId,
    hruleName, hsrcIp, hroute⟩, htitle⟩ := h
  obtain ⟨priority, hpriority⟩ := ok_getD (intOf_int int 10) hpriority
  obtain ⟨severity, hseverity⟩ := ok_getD (intOf_int int 4) hseverity
  obtain ⟨risk, hrisk⟩ := ok_getD (floatOf_int float 70 (by decide)) hrisk
  obtain ⟨score, hscore⟩ := ok_getD (floatOf_int float 75 (by decide)) hscore
  obtain ⟨category, hcategory⟩ := ok_of_isOk hcategory
  obtain ⟨host, hhost⟩ := ok_of_isOk hhost
  obtain ⟨user, huser⟩ := ok_of_isOk huser
  obtain ⟨ruleId, hruleId⟩ := ok_of_isOk hruleId
  obtain ⟨ruleName, hruleName⟩ := ok_of_isOk hruleName
  obtain ⟨srcIp, hsrcIp⟩ := ok_of_isOk hsrcIp
  obtain ⟨title, htitle⟩ := ok_of_isOk htitle
  have hroute' : ∃ route, optionalText
      (some ((payload.get? "triage_route").getD (.str "queue_deep_review"))) = .ok route := by
    cases hvalue : payload.get? "triage_route" with
    | none => exact ⟨_, rfl⟩
    | some value =>
      rw [hvalue] at hroute
      exact ok_of_isOk hroute
  obtain ⟨route, hroute⟩ := hroute'
  simp [buildRegressionContext, hobj, hpriority, hseverity, hrisk, hscore, hcategory, hhost,
    huser, hruleId, hruleName, hsrcIp, htitle, hroute, bind, Except.bind, pure, Except.pure]

end

def Environment.usable (E : Environment) (case : RegressionTestCase) : Bool :=
  buildable E.int E.float case.alertPayload && (E.fixtures case.name).isOk
    && (listOr case.expectedSkills).isOk && (listOr case.forbiddenSkills).isOk

/--
A run starts with a readable configuration, its cases have the mock model and can be evaluated,
and if awaits on mock objects suspend, no case starts and no live investigation takes a step
while the loop of a case runs.
-/
def Environment.undisturbed (E : Environment) (p : Process) : Environment.Step → Bool
  | .live _ => !E.mocksSuspend || !p.busy
  | .begin args _ =>
    args.trigger.length ≤ 128
      && (args.useLock && p.lock || (loadEvalConfig E.rt E.int p.tables.systemConfig).isOk)
  | .enter i _ =>
    (p.runners[i]?.elim true fun r =>
      !r.realLlm && (r.remaining.head?.elim true fun case => E.usable case.2))
      && (!E.mocksSuspend || !p.busy)
  | _ => true

/-- The run has committed its rows, or it had no case to run and said why. -/
def Runner.Completed (p : Process) (r : Runner) : Prop :=
  (r.remaining = [] ∧ ∃ now, Environment.runRow r now ∈ p.regressionTestRuns ∧
      Environment.auditRow (Environment.runRow r now) ∈ p.auditLogs) ∨
    ∃ result, r.position = .ended (.ok result) ∧ (result.skippedLock = true ∨ result.errors ≠ [])

/--
Without the steps of the regression runs the tables and all replies to live investigations would
be the same, and every regression run that has ended is complete.
-/
structure LeavesProductionAlone (E : Environment) (tables : Tables)
    (steps : List Environment.Step) (p : Process) : Prop where
  production : ∃ p₀, (E.system tables).run (steps.filter Environment.Step.isProduction)
      (Environment.start tables) = some p₀ ∧ p.tables = p₀.tables ∧ p.replies = p₀.replies
  complete : ∀ r ∈ p.runners, ∀ outcome, r.position = .ended outcome → r.Completed p

/-- A runner in a case has the mock model and will restore the functions of the process. -/
structure Runner.Restores (r : Runner) (c : RunningCase) : Prop where
  loader : c.savedLoader = .original
  executor : c.savedExecutor = .original
  mock : r.realLlm = false
  model : ∃ llm, c.model = .mock llm
  expected : (listOr c.case.expectedSkills).isOk = true
  forbidden : (listOr c.case.forbiddenSkills).isOk = true

/-- A runner gives no row of a case to its session and can store its own. -/
structure Runner.Keeps (p : Process) (r : Runner) : Prop where
  messages : r.messages = []
  toolCalls : r.toolCalls = []
  trigger : r.trigger.length ≤ 128
  inCase : ∀ c, r.position = .inCase c → r.Restores c
  ended : ∀ outcome, r.position = .ended outcome → r.Completed p

/-- At most one case runs, and the functions are replaced only while it does. -/
structure Settled (p : Process) : Prop where
  bindings : (∀ r ∈ p.runners, r.inCase = false) → p.loader = .original ∧ p.executor = .original
  single : ∀ (i j : ℕ) (r r' : Runner), p.runners[i]? = some r → p.runners[j]? = some r' →
    r.inCase = true → r'.inCase = true → i = j
  runners : ∀ r ∈ p.runners, r.Keeps p

variable {E : Environment} {tables : Tables} {p p' p₀ : Process} {i : ℕ} {r r' : Runner}
  {c : RunningCase} {now : Time}

theorem inCase_iff : r.inCase = true ↔ ∃ c, r.position = .inCase c := by
  unfold Runner.inCase
  split
  · rename_i c h
    exact ⟨fun _ => ⟨c, h⟩, fun _ => rfl⟩
  · rename_i h
    constructor
    · nofun
    · rintro ⟨c, hc⟩
      exact absurd hc (h c)

theorem inMockCase_of {llm : MockRegressionLlm} (h : r.position = .inCase c)
    (hmodel : c.model = .mock llm) : r.inMockCase = true := by
  obtain ⟨caseId, case, context, startedAt, model, loader, executor, foreign⟩ := c
  obtain rfl : model = .mock llm := hmodel
  rw [Runner.inMockCase, h]

theorem Runner.Completed.mono (h : r.Completed p)
    (hruns : p.regressionTestRuns ⊆ p'.regressionTestRuns) (haudit : p.auditLogs ⊆ p'.auditLogs) :
    r.Completed p' := by
  rcases h with ⟨hremaining, now, hrun, hlog⟩ | h
  · exact .inl ⟨hremaining, now, hruns hrun, haudit hlog⟩
  · exact .inr h

theorem Runner.Keeps.mono (h : r.Keeps p)
    (hruns : p.regressionTestRuns ⊆ p'.regressionTestRuns) (haudit : p.auditLogs ⊆ p'.auditLogs) :
    r.Keeps p' where
  messages := h.messages
  toolCalls := h.toolCalls
  trigger := h.trigger
  inCase := h.inCase
  ended outcome hended := (h.ended outcome hended).mono hruns haudit

namespace Settled

/-- While nothing runs beside a mock case, no case runs where another step is taken. -/
theorem idle (h : Settled p) (hcond : (!E.mocksSuspend || !p.busy) = true)
    (hadmits : (E.mocksSuspend || !p.runners.any Runner.inMockCase) = true) :
    ∀ r ∈ p.runners, r.inCase = false := by
  intro r hr
  cases hsuspend : E.mocksSuspend with
  | true =>
    rw [hsuspend, Bool.not_true, Bool.false_or, Bool.not_eq_true'] at hcond
    exact Bool.eq_false_iff.mpr (List.any_eq_false.mp hcond r hr)
  | false =>
    rw [hsuspend, Bool.false_or, Bool.not_eq_true'] at hadmits
    by_contra hcase
    obtain ⟨c, hc⟩ := inCase_iff.mp (Bool.eq_true_of_not_eq_false hcase)
    obtain ⟨llm, hmodel⟩ := ((h.runners r hr).inCase c hc).model
    exact List.any_eq_false.mp hadmits r hr (inMockCase_of hc hmodel)

theorem of_runners (h : Settled p) (hrunners : p'.runners = p.runners)
    (hloader : p'.loader = p.loader) (hexecutor : p'.executor = p.executor)
    (hruns : p'.regressionTestRuns = p.regressionTestRuns)
    (haudit : p'.auditLogs = p.auditLogs) : Settled p' where
  bindings := by
    rw [hrunners, hloader, hexecutor]
    exact h.bindings
  single := by
    rw [hrunners]
    exact h.single
  runners r hr := by
    rw [hrunners] at hr
    exact (h.runners r hr).mono (by rw [hruns]; exact List.Subset.refl _)
      (by rw [haudit]; exact List.Subset.refl _)

theorem set (h : Settled p) (hi : p.runners[i]? = some r)
    (hrunners : p'.runners = p.runners.set i r')
    (hruns : p.regressionTestRuns ⊆ p'.regressionTestRuns) (haudit : p.auditLogs ⊆ p'.auditLogs)
    (hother : r'.inCase = true → ∀ r ∈ p.runners, r.inCase = false)
    (hbindings : (∀ r ∈ p'.runners, r.inCase = false) →
      p'.loader = .original ∧ p'.executor = .original)
    (hkeeps : r'.Keeps p') : Settled p' where
  bindings := hbindings
  single j k s s' hj hk hs hs' := by
    have hcases (j : ℕ) (s : Runner) (hj : p'.runners[j]? = some s) :
        j = i ∧ s = r' ∨ j ≠ i ∧ p.runners[j]? = some s := by
      rw [hrunners] at hj
      by_cases hji : j = i
      · subst hji
        have hlt : j < p.runners.length := (List.getElem?_eq_some_iff.mp hi).1
        rw [List.getElem?_set_self hlt] at hj
        exact .inl ⟨rfl, (Option.some.inj hj).symm⟩
      · rw [List.getElem?_set_ne (Ne.symm hji)] at hj
        exact .inr ⟨hji, hj⟩
    rcases hcases j s hj with ⟨rfl, rfl⟩ | ⟨hji, hj'⟩ <;>
      rcases hcases k s' hk with ⟨rfl, rfl⟩ | ⟨hki, hk'⟩
    · rfl
    · exact absurd (hother hs s' (List.mem_of_getElem? hk')) (ne_false_of_eq_true hs')
    · exact absurd (hother hs' s (List.mem_of_getElem? hj')) (ne_false_of_eq_true hs)
    · exact h.single j k s s' hj' hk' hs hs'
  runners s hs := by
    rw [hrunners] at hs
    rcases List.mem_or_eq_of_mem_set hs with hs | rfl
    · exact (h.runners s hs).mono hruns haudit
    · exact hkeeps

/-- Where no runner is in a case after one that was in none has moved on, none was before. -/
theorem bindings_of_set (h : Settled p) (hi : p.runners[i]? = some r) (hr : r.inCase = false)
    (hnone : ∀ s ∈ p.runners.set i r', s.inCase = false) :
    p.loader = .original ∧ p.executor = .original := by
  refine h.bindings fun s hs => ?_
  obtain ⟨j, hj⟩ := List.mem_iff_getElem?.mp hs
  by_cases hji : j = i
  · subst hji
    obtain rfl : r = s := Option.some.inj (hi.symm.trans hj)
    exact hr
  · exact hnone s (List.mem_of_getElem? ((List.getElem?_set_ne (Ne.symm hji)).trans hj))

end Settled

section Steps

variable {args : RunArgs} {tie : ℕ → ℕ} {env : CaseEnv} {result : RegressionRunResult}

theorem keeps_of_ended (htrigger : args.trigger.length ≤ 128)
    (hresult : result.skippedLock = true ∨ result.errors ≠ []) :
    ({ trigger := args.trigger, position := .ended (.ok result) } : Runner).Keeps p := by
  constructor
  · rfl
  · rfl
  · exact htrigger
  · intro c hc
    cases hc
  · intro outcome houtcome
    exact .inr ⟨result, rfl, hresult⟩

theorem Runner.Keeps.between (h : r.Keeps p) (hposition : r'.position = .between)
    (hmessages : r'.messages = r.messages) (htoolCalls : r'.toolCalls = r.toolCalls)
    (htrigger : r'.trigger = r.trigger) : r'.Keeps p := by
  constructor
  · rw [hmessages, h.messages]
  · rw [htoolCalls, h.toolCalls]
  · rw [htrigger]
    exact h.trigger
  · intro c hc
    rw [hposition] at hc
    cases hc
  · intro outcome houtcome
    rw [hposition] at houtcome
    cases houtcome

theorem openRun_keeps (hcond : E.undisturbed p (.begin args tie) = true) :
    (E.openRun args tie p).Keeps p ∧ (E.openRun args tie p).inCase = false := by
  rw [Environment.undisturbed, Bool.and_eq_true, Bool.or_eq_true, decide_eq_true_eq] at hcond
  obtain ⟨htrigger, hreadable⟩ := hcond
  unfold Environment.openRun
  split
  · exact ⟨keeps_of_ended htrigger (.inl rfl), rfl⟩
  · rename_i hlock
    obtain ⟨config, hconfig⟩ := ok_of_isOk (hreadable.resolve_left hlock)
    rw [hconfig]
    dsimp only
    split
    · exact ⟨keeps_of_ended htrigger (.inr (List.cons_ne_nil _ _)), rfl⟩
    · split
      · exact ⟨keeps_of_ended htrigger (.inr (List.cons_ne_nil _ _)), rfl⟩
      · constructor
        · constructor
          · rfl
          · rfl
          · exact htrigger
          · intro c hc
            cases hc
          · intro outcome houtcome
            cases houtcome
        · rfl

theorem begin_settled (h : Settled p) (hcond : E.undisturbed p (.begin args tie) = true) :
    Settled (E.begin args tie p) := by
  obtain ⟨hkeeps, hnew⟩ := openRun_keeps hcond
  have hold (j : ℕ) (s : Runner) (hj : (p.runners ++ [E.openRun args tie p])[j]? = some s)
      (hs : s.inCase = true) : p.runners[j]? = some s := by
    rcases Nat.lt_or_ge j p.runners.length with hlt | hge
    · rwa [List.getElem?_append_left hlt] at hj
    · rw [List.getElem?_append_right hge] at hj
      obtain rfl := List.mem_singleton.mp (List.mem_of_getElem? hj)
      exact absurd hnew (ne_false_of_eq_true hs)
  constructor
  · intro hnone
    exact h.bindings fun r hr => hnone r (List.mem_append_left _ hr)
  · intro j k s s' hj hk hs hs'
    exact h.single j k s s' (hold j s hj hs) (hold k s' hk hs') hs hs'
  · intro s hs
    rcases List.mem_append.mp hs with hs | hs
    · exact (h.runners s hs).mono (List.Subset.refl _) (List.Subset.refl _)
    · obtain rfl := List.mem_singleton.mp hs
      exact hkeeps.mono (List.Subset.refl _) (List.Subset.refl _)

theorem prepare_of_usable {case : RegressionTestCase} (now : Time) (h : E.usable case = true) :
    ∃ context llm, E.prepare now false case = .ok (context, .mock llm) := by
  rw [Environment.usable, Bool.and_eq_true, Bool.and_eq_true, Bool.and_eq_true] at h
  obtain ⟨⟨⟨hbuildable, hfixture⟩, -⟩, -⟩ := h
  obtain ⟨context, hcontext⟩ := build_of_buildable E.rt now case.name hbuildable
  obtain ⟨file, hfile⟩ := ok_of_isOk hfixture
  have hmodel : ∃ llm, E.caseModel false case = .ok (.mock llm) := by
    rw [Environment.caseModel, loadSteps, hfile]
    exact ⟨_, rfl⟩
  obtain ⟨llm, hmodel⟩ := hmodel
  refine ⟨context, llm, ?_⟩
  rw [Environment.prepare, hcontext, hmodel]
  rfl

theorem enter_settled (h : Settled p) (hidle : ∀ r ∈ p.runners, r.inCase = false)
    (hcond : E.undisturbed p (.enter i now) = true) (hstep : E.enter i now p = some p') :
    Settled p' := by
  obtain ⟨r, hi, hstep⟩ := Option.bind_eq_some_iff.mp hstep
  rw [Environment.undisturbed, hi, Bool.and_eq_true, Option.elim_some, Bool.and_eq_true,
    Bool.not_eq_true'] at hcond
  obtain ⟨⟨hmock, husable⟩, -⟩ := hcond
  have hr := h.runners r (List.mem_of_getElem? hi)
  split at hstep
  · rename_i caseId case rest hposition hremaining
    rw [hremaining, List.head?_cons, Option.elim_some] at husable
    obtain ⟨context, llm, hprepared⟩ := prepare_of_usable now husable
    rw [hmock, hprepared] at hstep
    obtain rfl := Option.some.inj hstep
    obtain ⟨hloader, hexecutor⟩ := h.bindings hidle
    rw [Environment.usable, Bool.and_eq_true, Bool.and_eq_true] at husable
    refine h.set hi rfl (List.Subset.refl _) (List.Subset.refl _) (fun _ => hidle) ?_ ?_
    · intro hnone
      have hlt : i < p.runners.length := (List.getElem?_eq_some_iff.mp hi).1
      cases hnone _ (List.mem_set hlt _)
    · constructor
      · exact hr.messages
      · exact hr.toolCalls
      · exact hr.trigger
      · rintro c ⟨⟩
        exact ⟨hloader, hexecutor, rfl, ⟨llm, rfl⟩, husable.1.2, husable.2⟩
      · intro outcome houtcome
        cases houtcome
  · cases hstep

theorem caseResult_ok (E : Environment) (env : CaseEnv) (r : Runner)
    (hexpected : (listOr c.case.expectedSkills).isOk = true)
    (hforbidden : (listOr c.case.forbiddenSkills).isOk = true)
    (loop : Except Exn AgentLoopResult × World) :
    ∃ result, E.caseResult env r c loop = .ok result := by
  obtain ⟨expected, hexpected⟩ := ok_of_isOk hexpected
  obtain ⟨forbidden, hforbidden⟩ := ok_of_isOk hforbidden
  rw [Environment.caseResult, hexpected, hforbidden]
  exact ⟨_, rfl⟩

theorem leave_settled (h : Settled p) (hstep : E.leave i env p = some p') : Settled p' := by
  obtain ⟨r, hi, hstep⟩ := Option.bind_eq_some_iff.mp hstep
  have hr := h.runners r (List.mem_of_getElem? hi)
  split at hstep
  · rename_i c hposition
    obtain ⟨hloader, hexecutor, hreal, -, hexpected, hforbidden⟩ := hr.inCase c hposition
    generalize caseLoop E.rt env c.context c.startedAt (p.executor != .original) c.model = loop
      at hstep
    obtain ⟨result, hresult⟩ := caseResult_ok E env r hexpected hforbidden loop
    have hgiven : r.given loop.2 = r := if_neg (ne_true_of_eq_false hreal)
    simp only [hgiven, hreal, Bool.false_and, Bool.false_eq_true, if_false, hresult] at hstep
    obtain rfl := Option.some.inj hstep
    refine h.set hi rfl (List.Subset.refl _) (List.Subset.refl _) nofun
      (fun _ => ⟨hloader, hexecutor⟩) ?_
    refine Runner.Keeps.between (r := r) ?_ rfl rfl rfl rfl
    exact hr.mono (List.Subset.refl _) (List.Subset.refl _)
  · cases hstep

theorem flush_of_keeps (h : r.Keeps p) : Environment.flush r = .ok () := by
  rw [Environment.flush, h.messages, h.toolCalls, if_neg (by decide),
    if_neg (Nat.not_lt.mpr h.trigger)]

theorem finish_settled (h : Settled p) (hstep : E.finish i now p = some p') : Settled p' := by
  obtain ⟨r, hi, hstep⟩ := Option.bind_eq_some_iff.mp hstep
  have hr := h.runners r (List.mem_of_getElem? hi)
  split at hstep
  · rename_i hposition hremaining
    rw [flush_of_keeps hr] at hstep
    obtain rfl := Option.some.inj hstep
    have hcase : r.inCase = false := by rw [Runner.inCase, hposition]
    refine h.set hi rfl (List.subset_append_left _ _) (List.subset_append_left _ _) nofun
      (h.bindings_of_set hi hcase) ?_
    constructor
    · exact hr.messages
    · exact hr.toolCalls
    · exact hr.trigger
    · intro c hc
      cases hc
    · intro outcome houtcome
      exact .inl ⟨hremaining, now, List.mem_append_right _ List.mem_cons_self,
        List.mem_append_right _ List.mem_cons_self⟩
  · cases hstep

end Steps

/-- A run beside which regression runs take their steps, and one in which they do not. -/
structure Beside (p p₀ : Process) : Prop where
  settled : Settled p
  tables : p.tables = p₀.tables
  replies : p.replies = p₀.replies
  loader : p₀.loader = .original
  executor : p₀.executor = .original
  runners : p₀.runners = []

/-- Regression runs write no table but their own, whatever happens to their cases. -/
theorem step_keeps_tables {l : Environment.Step} (hl : l.isProduction = false)
    (h : E.step l p = some p') : p'.tables = p.tables ∧ p'.replies = p.replies := by
  unfold Environment.step at h
  split at h
  · cases l with
    | service write => cases hl
    | live k => cases hl
    | begin args tie =>
      obtain rfl := Option.some.inj h
      exact ⟨rfl, rfl⟩
    | enter i now =>
      obtain ⟨r, -, h⟩ := Option.bind_eq_some_iff.mp h
      split at h
      · split at h <;> obtain rfl := Option.some.inj h <;> exact ⟨rfl, rfl⟩
      · cases h
    | leave i env =>
      obtain ⟨r, -, h⟩ := Option.bind_eq_some_iff.mp h
      split at h
      · rename_i c hposition
        generalize caseLoop E.rt env c.context c.startedAt (p.executor != .original) c.model = loop
          at h
        dsimp only at h
        split at h
        · obtain rfl := Option.some.inj h
          exact ⟨rfl, rfl⟩
        · split at h <;> obtain rfl := Option.some.inj h <;> exact ⟨rfl, rfl⟩
      · cases h
    | finish i now =>
      obtain ⟨r, -, h⟩ := Option.bind_eq_some_iff.mp h
      split at h
      · split at h <;> obtain rfl := Option.some.inj h <;> exact ⟨rfl, rfl⟩
      · cases h
    | lockExpires =>
      obtain rfl := Option.some.inj h
      exact ⟨rfl, rfl⟩
  · cases h

theorem admits_of_step {l : Environment.Step} (h : E.step l p = some p') :
    E.admits p l = true := by
  unfold Environment.step at h
  split at h
  · assumption
  · cases h

theorem Beside.hidden {l : Environment.Step} (h : Beside p p₀) (hcond : E.undisturbed p l = true)
    (hl : l.isProduction = false) (hstep : E.step l p = some p') : Beside p' p₀ := by
  obtain ⟨htables, hreplies⟩ := step_keeps_tables hl hstep
  have hadmits := admits_of_step hstep
  have hsettled : Settled p' := by
    unfold Environment.step at hstep
    rw [if_pos hadmits] at hstep
    cases l with
    | service write => cases hl
    | live k => cases hl
    | begin args tie =>
      obtain rfl := Option.some.inj hstep
      exact begin_settled h.settled hcond
    | enter i now =>
      have hbusy := (Bool.and_eq_true_iff.mp hcond).2
      exact enter_settled h.settled (h.settled.idle hbusy hadmits) hcond hstep
    | leave i env => exact leave_settled h.settled hstep
    | finish i now => exact finish_settled h.settled hstep
    | lockExpires =>
      obtain rfl := Option.some.inj hstep
      exact h.settled.of_runners rfl rfl rfl rfl rfl
  exact {
    settled := hsettled
    tables := htables.trans h.tables
    replies := hreplies.trans h.replies
    loader := h.loader
    executor := h.executor
    runners := h.runners }

theorem admits_of_no_runners {l : Environment.Step} (h : p.runners = []) : E.admits p l = true := by
  unfold Environment.admits
  rw [h]
  cases l <;> simp

/-- The same request gets the same answer where the functions are the original ones. -/
theorem Beside.answer (h : Beside p p₀) (E : Environment) (k : ℕ) (request : LiveRequest)
    (hloader : p.loader = .original) (hexecutor : p.executor = .original) :
    (E.answer k request p).1 = (E.answer k request p₀).1 ∧
      Beside (E.answer k request p).2 (E.answer k request p₀).2 := by
  cases request with
  | dispositionConfig =>
    simp only [Environment.answer, hloader, h.loader, h.tables]
    exact ⟨trivial, h⟩
  | skill name params =>
    simp only [Environment.answer, hexecutor, h.executor, h.tables]
    exact ⟨trivial, {
      settled := h.settled.of_runners rfl rfl hexecutor.symm rfl rfl
      tables := rfl
      replies := h.replies
      loader := h.loader
      executor := rfl
      runners := h.runners }⟩

theorem Beside.receive {k : ℕ} {reply : LiveReply} (h : Beside p p₀) :
    Beside (E.receive k reply p) (E.receive k reply p₀) := by
  constructor
  · exact h.settled.of_runners rfl rfl rfl rfl rfl
  · simp only [Environment.receive, h.tables, h.replies]
  · simp only [Environment.receive, h.replies]
  · exact h.loader
  · exact h.executor
  · exact h.runners

/-- An undisturbed step that is not one of a regression run is the same without them. -/
theorem Beside.kept {l : Environment.Step} (h : Beside p p₀) (hcond : E.undisturbed p l = true)
    (hl : l.isProduction = true) (hstep : E.step l p = some p') :
    ∃ p₀', E.step l p₀ = some p₀' ∧ Beside p' p₀' := by
  have hadmits := admits_of_step hstep
  unfold Environment.step at hstep ⊢
  rw [if_pos hadmits] at hstep
  rw [if_pos (admits_of_no_runners h.runners)]
  cases l with
  | service write =>
    obtain rfl := Option.some.inj hstep
    exact ⟨_, rfl, {
      settled := h.settled.of_runners rfl rfl rfl rfl rfl
      tables := congrArg write h.tables
      replies := h.replies
      loader := h.loader
      executor := h.executor
      runners := h.runners }⟩
  | live k =>
    obtain ⟨request, hrequest, rfl⟩ := Option.map_eq_some_iff.mp hstep
    obtain ⟨hloader, hexecutor⟩ := h.settled.bindings (h.settled.idle hcond hadmits)
    obtain ⟨hreply, hanswered⟩ := h.answer E k request hloader hexecutor
    refine ⟨_, Option.map_eq_some_iff.mpr ⟨request, h.replies ▸ hrequest, rfl⟩, ?_⟩
    rw [hreply]
    exact hanswered.receive
  | _ => cases hl

theorem beside_start (tables : Tables) :
    Beside (Environment.start tables) (Environment.start tables) where
  settled := {
    bindings := fun _ => ⟨rfl, rfl⟩
    single := by simp [Environment.start]
    runners := by simp [Environment.start] }
  tables := rfl
  replies := rfl
  loader := rfl
  executor := rfl
  runners := rfl

/--
In every run of the process whose steps are undisturbed, the regression runs leave the tables and
the live investigations as they would be without them, and complete.
-/
theorem regression_leaves_production_alone (E : Environment) (tables : Tables)
    (steps : List Environment.Step) (p : Process)
    (hundisturbed : (E.system tables).RunsBy (fun p l => E.undisturbed p l = true) steps
      (Environment.start tables))
    (hrun : (E.system tables).run steps (Environment.start tables) = some p) :
    LeavesProductionAlone E tables steps p := by
  have hidden {q q₀ q' : Process} {l : Environment.Step} (h : Beside q q₀)
      (hcond : E.undisturbed q l = true) (hl : l.isProduction = false)
      (hstep : (E.system tables).step l q = some q') : Beside q' q₀ :=
    h.hidden hcond hl hstep
  have kept {q q₀ q' : Process} {l : Environment.Step} (h : Beside q q₀)
      (hcond : E.undisturbed q l = true) (hl : l.isProduction = true)
      (hstep : (E.system tables).step l q = some q') :
      ∃ q₀', (E.system tables).step l q₀ = some q₀' ∧ Beside q' q₀' :=
    h.kept hcond hl hstep
  obtain ⟨p₀, hrun₀, h⟩ := System.run_filter hidden kept (beside_start tables) hundisturbed hrun
  constructor
  · exact ⟨p₀, hrun₀, h.tables, h.replies⟩
  · intro r hr outcome hended
    exact (h.settled.runners r hr).ended outcome hended

/-- One case whose fixture calls a skill, and a live investigation that loads its configuration. -/
def sampleEnvironment : Environment where
  rt := sampleRuntime .nondecreasing []
  int := String.toInt?
  float _ := none
  fixtures _ := .ok (some [{ skill := "query_asset" },
    { verdict := some (.str "likely_false_positive") }])
  live _ := {
    next replies := if replies.length < 2 then some .dispositionConfig else none
    write _ tables := tables }

def sampleTables : Tables where
  systemConfig := [("disposition.simulation_enabled", .bool true)]
  cases := [{
    name := "brute_force_fp"
    alertPayload := .obj [("rule_id", .str "5710")]
    expectedVerdict := .likelyFalsePositive
    expectedSkills := .arr [.str "query_asset"] }]

/-- What the live investigation was told about simulation. -/
def simulationReplies (p : Process) : List Bool :=
  (p.replies 0).map fun reply =>
    match reply with
    | .dispositionConfig (.ok config) => config.simulationEnabled
    | _ => false

/-- A run with the mock model between two requests of a live investigation. -/
def mockSteps : List Environment.Step :=
  [.live 0, .begin {} id, .enter 0 0, .leave 0 {}, .finish 0 5, .live 0]

def afterMock : Process :=
  ((sampleEnvironment.system sampleTables).runIf sampleEnvironment.undisturbed mockSteps
    (Environment.start sampleTables)).getD (Environment.start sampleTables)

theorem regression_leaves_production_alone_mock :
    LeavesProductionAlone sampleEnvironment sampleTables mockSteps afterMock ∧
      afterMock.regressionTestRuns.map (fun run => (run.passed, run.failed)) = [(1, 0)] ∧
      simulationReplies afterMock = [true, true] := by
  obtain ⟨hsteps, hrun⟩ : _ ∧ (sampleEnvironment.system sampleTables).run mockSteps
      (Environment.start sampleTables) = some afterMock :=
    System.run_of_runIf (System.runIf_getD (by decide +kernel))
  exact ⟨regression_leaves_production_alone sampleEnvironment sampleTables mockSteps afterMock
    hsteps hrun, by decide +kernel, by decide +kernel⟩

/-- A run with the real model, while a live investigation loads its configuration. -/
def realSteps : List Environment.Step :=
  [.begin { useRealLlm := some true } id, .enter 0 0, .live 0, .leave 0 {}, .finish 0 5]

def afterReal : Process :=
  ((sampleEnvironment.system sampleTables).run realSteps (Environment.start sampleTables)).getD
    (Environment.start sampleTables)

def Runner.raised (r : Runner) : Bool :=
  match r.position with
  | .ended (.error _) => true
  | _ => false

/--
With the real model the messages of a case violate their foreign key, so that the commit of the
run fails, and an investigation is told that simulation is off while it is on.
-/
theorem real_run_is_not_alone :
    (sampleEnvironment.system sampleTables).run realSteps (Environment.start sampleTables) =
        some afterReal ∧ afterReal.runners.map Runner.raised = [true] ∧
      afterReal.regressionTestRuns.length = 0 ∧ simulationReplies afterReal = [false] ∧
      ¬ LeavesProductionAlone sampleEnvironment sampleTables realSteps afterReal := by
  refine ⟨System.run_getD (by decide +kernel), by decide +kernel, by decide +kernel,
    by decide +kernel, fun h => ?_⟩
  obtain ⟨p₀, hrun₀, -, hreplies⟩ := h.production
  have htold : ((sampleEnvironment.system sampleTables).run
      (realSteps.filter Environment.Step.isProduction) (Environment.start sampleTables)).map
      simulationReplies = some [true] := by decide +kernel
  rw [hrun₀, Option.map_some, simulationReplies, ← hreplies] at htold
  revert htold
  decide +kernel

end Minsight.Regression

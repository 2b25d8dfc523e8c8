import Mathlib.Data.String.Basic
import Minsight.Eval.Regression
import Minsight.Foundation.System

/-! # The regression runner in its process

Regression runs and live investigations are tasks of one process. A run replaces functions of the
process while the loop of a case runs, and another task can take a step wherever an await
suspends. The awaits of a case with the real model do; those on mock objects return at once, which
is a parameter here.
-/

namespace Minsight.Regression

open Tx

/-- The tables that a regression run only reads. -/
structure Tables where
  db : Db := {}
  systemConfig : SystemConfig := []
  cases : Rows RegressionTestCase := []

structure RegressionTestRun where
  trigger : String
  modelName : String
  total : ℕ
  passed : ℕ
  failed : ℕ
  metrics : RegressionMetrics
  details : List CaseEvalResult
  runAt : Time

structure AuditLog where
  action : String
  passed : ℕ
  failed : ℕ

inductive CaseModel
  | real
  | mock (llm : MockRegressionLlm)

structure CaseEnv where
  prompts : RegressionContext → String × String := fun _ => ("", "")
  /-- The answers of the real model. -/
  chat : ℕ → List ChatMessage → Except Exn LlmResponse := fun _ _ => .error .external
  /-- The answers of the registered skills. -/
  skill : ℕ → ℕ → ℕ → SkillAnswer := fun _ _ _ => { result := .error .external }
  clock : ℕ → Time := fun _ => 0
  message : Exn → String := fun _ => ""
  dumpMessage : ChatMessage → String := fun _ => ""

/-- The loop's environment; `mocked` tells whether skills are executed by the mock. -/
def CaseEnv.agentEnv (env : CaseEnv) (context : RegressionContext) (mocked : Bool) :
    CaseModel → AgentEnv
  | .real => {
      prompts _ := env.prompts context
      chat := env.chat
      skill := env.skill
      clock := env.clock
      message := env.message
      dumpMessage := env.dumpMessage }
  | .mock llm => {
      prompts _ := env.prompts context
      chat n _ := .ok (llm.nextResponse n)
      skill step calls attempt :=
        if mocked then { result := .ok (mockExecute (llm.stepAt step).skill) }
        else env.skill step calls attempt
      clock := env.clock
      message := env.message
      dumpMessage := env.dumpMessage }

def caseConfig (context : RegressionContext) : InvestigationConfig where
  maxSteps := 20
  maxSkillCalls := 40
  modelName := context.modelName

/-- The investigation that `build_regression_context` makes, and that no session is given. -/
def caseInvestigation (context : RegressionContext) (startedAt : Time) : Investigation where
  eventId := 0
  modelName := context.modelName
  maxSteps := 5
  startedAt := startedAt

def caseContext (context : RegressionContext) : InvestigationContext where
  investigationId := 0
  eventId := 0
  event := {
    eventKey := ""
    title := context.event.title
    primaryCategory := context.event.primaryCategory
    riskScore := context.event.riskScore
    alertCount := context.event.alertCount
    firstAlertAt := some context.event.firstAlertAt.1
    lastAlertAt := some context.event.lastAlertAt.1
    queuePriority := context.event.queuePriority
    aggregateHostName := context.event.aggregateHostName
    aggregateUserName := context.event.aggregateUserName
    createdAt := 0 }
  alerts := []
  sop := none
  modelName := context.modelName

def caseLoop (rt : Runtime) (env : CaseEnv) (context : RegressionContext) (startedAt : Time)
    (mocked : Bool) (model : CaseModel) : Except Exn AgentLoopResult × World :=
  exec (agentRun rt (caseConfig context) (env.agentEnv context mocked model)
      (caseContext context))
    { db := { investigations := [caseInvestigation context startedAt] }
      out := { clock := startedAt } }

structure RunArgs where
  trigger : String := "manual"
  tag : Option String := none
  useRealLlm : Option Bool := none
  useLock : Bool := true

structure RegressionRunResult where
  runId : Option ℕ := none
  total : ℕ := 0
  passed : ℕ := 0
  failed : ℕ := 0
  skippedLock : Bool := false
  errors : List String := []

/-- What `app.agent.loop.load_disposition_config` is bound to. -/
inductive Loader
  | original | mock
  deriving DecidableEq

/-- What `SkillRegistry.execute` is bound to. -/
inductive Executor
  | original
  /-- The mock that notes the skills of the case of a runner. -/
  | mock (runner : ℕ)
  deriving DecidableEq

/-- A case whose loop runs, with the bindings that are restored after it. -/
structure RunningCase where
  caseId : ℕ
  case : RegressionTestCase
  context : RegressionContext
  startedAt : Time
  model : CaseModel
  savedLoader : Loader
  savedExecutor : Executor
  /-- The skills that other tasks had executed by the mock. -/
  foreignSkills : List String := []

inductive Position
  | between
  | inCase (running : RunningCase)
  | ended (outcome : Except Exn RegressionRunResult)

/-- A `RegressionRunner` and its session. -/
structure Runner where
  trigger : String
  realLlm : Bool := false
  requireClosure : Bool := true
  lockAcquired : Bool := false
  results : List CaseEvalResult := []
  remaining : List (ℕ × RegressionTestCase) := []
  position : Position := .between
  /-- Rows that the session will insert; their investigations are in no session. -/
  messages : List InvestigationMessage := []
  toolCalls : List InvestigationToolCall := []

def Runner.inCase (r : Runner) : Bool :=
  match r.position with
  | .inCase _ => true
  | _ => false

def Runner.inMockCase (r : Runner) : Bool :=
  match r.position with
  | .inCase { model := .mock _, .. } => true
  | _ => false

def Runner.note (skill : String) (r : Runner) : Runner :=
  match r.position with
  | .inCase c => { r with
      position := .inCase { c with foreignSkills := c.foreignSkills ++ [skill] } }
  | _ => r

/-- The runner after a loop has given rows to its session; a mock session drops them. -/
def Runner.given (w : World) (r : Runner) : Runner :=
  if r.realLlm then { r with
    messages := r.messages ++ w.db.messages
    toolCalls := r.toolCalls ++ w.db.toolCalls }
  else r

inductive LiveRequest
  | dispositionConfig
  | skill (name : String) (params : Json)

inductive LiveReply
  | dispositionConfig (config : Except Exn DispositionConfig)
  | skill (result : Except Exn SkillResult)

/-- An investigation that is not a regression case: what it asks for next and what it writes. -/
structure LiveInvestigation where
  next : List LiveReply → Option LiveRequest
  write : List LiveReply → Tables → Tables

/-- What a registered skill returns to an investigation and what it writes. -/
abbrev Skill := ℕ → Json → Tables → Except Exn SkillResult × Tables

/-- What the process takes from outside. -/
structure Environment where
  rt : Runtime
  /-- `int(text)` -/
  int : String → Option ℤ
  /-- `float(text)` -/
  float : String → Option ℚ
  /-- The fixture file of a case. -/
  fixtures : String → Except Exn (Option (List FixtureStep)) := fun _ => .ok none
  /-- `DISPOSITION_MOCK_MODE` -/
  mockEnv : Option String := none
  skills : String → Option Skill := fun _ => none
  live : ℕ → LiveInvestigation
  /-- Awaits on mock objects let other tasks run. -/
  mocksSuspend : Bool := false

structure Process where
  tables : Tables
  regressionTestRuns : Rows RegressionTestRun := []
  auditLogs : Rows AuditLog := []
  /-- `eval:lock:regression` -/
  lock : Bool := false
  loader : Loader := .original
  executor : Executor := .original
  runners : List Runner := []
  /-- The replies that the live investigations have got. -/
  replies : ℕ → List LiveReply := fun _ => []

def Process.busy (p : Process) : Bool := p.runners.any Runner.inCase

def Process.endRunner (i : ℕ) (r : Runner) (outcome : Except Exn RegressionRunResult)
    (p : Process) : Process :=
  { p with
    runners := p.runners.set i { r with position := .ended outcome }
    lock := p.lock && !r.lockAcquired }

namespace Environment

variable (E : Environment)

/-- `_load_cases` -/
def loadCases (tie : ℕ → ℕ) (tag : Option String) (cases : Rows RegressionTestCase) :
    List (ℕ × RegressionTestCase) :=
  let active := Rows.select (fun _ case =>
    case.isActive && ((truthyText tag).elim true case.hasTag)) cases
  active.insertionSort (Rows.ascending (fun c => c.2.name) fun c => tie c.1)

def openRun (args : RunArgs) (tie : ℕ → ℕ) (p : Process) : Runner :=
  let ended (outcome : Except Exn RegressionRunResult) : Runner :=
    { trigger := args.trigger, position := .ended outcome }
  if args.useLock && p.lock then ended (.ok { skippedLock := true })
  else
    match loadEvalConfig E.rt E.int p.tables.systemConfig with
    | .error e => ended (.error e)
    | .ok config =>
      if !config.regressionEnabled then ended (.ok { errors := ["regression disabled"] })
      else
        let cases := loadCases tie args.tag p.tables.cases
        if cases.isEmpty then ended (.ok { errors := ["no active regression cases"] })
        else {
          trigger := args.trigger
          realLlm := args.useRealLlm.getD config.regressionUseRealLlmDefault
          requireClosure :=
            getConfigBool p.tables.systemConfig "eval.require_closure_pass_for_regression" true
          lockAcquired := args.useLock
          remaining := cases }

def begin (args : RunArgs) (tie : ℕ → ℕ) (p : Process) : Process :=
  let r := E.openRun args tie p
  { p with
    runners := p.runners ++ [r]
    lock := p.lock || r.lockAcquired }

def caseModel (realLlm : Bool) (case : RegressionTestCase) : Except Exn CaseModel :=
  if realLlm then .ok .real
  else (loadSteps E.fixtures case.name case.expectedVerdict).map fun steps =>
    .mock { fallbackVerdict := case.expectedVerdict, steps }

/-- What `_run_case` does before its `try`. -/
def prepare (now : Time) (realLlm : Bool) (case : RegressionTestCase) :
    Except Exn (RegressionContext × CaseModel) := do
  let context ← buildRegressionContext E.rt E.int E.float now case.name case.alertPayload
  let model ← E.caseModel realLlm case
  pure (context, model)

/-- The next case is prepared and the functions its loop must not use are replaced. -/
def enter (i : ℕ) (now : Time) (p : Process) : Option Process := do
  let r ← p.runners[i]?
  match r.position, r.remaining with
  | .between, (caseId, case) :: rest =>
    match E.prepare now r.realLlm case with
    | .error e => some (p.endRunner i r (.error e))
    | .ok (context, model) => some { p with
        loader := .mock
        executor := if r.realLlm then p.executor else .mock i
        runners := p.runners.set i { r with
          remaining := rest
          position := .inCase {
            caseId, case, context, model
            startedAt := now
            savedLoader := p.loader
            savedExecutor := p.executor } } }
  | _, _ => none

def notedSkills (c : RunningCase) (log : List AgentEvent) : List String :=
  match c.model with
  | .real => []
  | .mock llm => llm.noted log ++ c.foreignSkills

def caseResult (env : CaseEnv) (r : Runner) (c : RunningCase)
    (loop : Except Exn AgentLoopResult × World) : Except Exn CaseEvalResult := do
  let expected ← listOr c.case.expectedSkills
  let forbidden ← listOr c.case.forbiddenSkills
  let outcome : CaseOutcome := match loop.1 with
    | .error e => { error := some (env.message e) }
    | .ok result => {
        actualVerdict := some result.conclusion.verdict
        actualSkills :=
          if result.skillsCalled = [] then notedSkills c loop.2.out.agentLog
          else result.skillsCalled
        requireSkills := !r.realLlm
        requireClosurePass := r.requireClosure
        closurePassed := result.closureResult.map (·.passed) }
  pure (evaluateCase E.rt.str c.caseId c.case expected forbidden outcome)

/-- The loop of a case ends, the functions are restored and the case is evaluated. -/
def leave (i : ℕ) (env : CaseEnv) (p : Process) : Option Process := do
  let r ← p.runners[i]?
  match r.position with
  | .inCase c =>
    let loop := caseLoop E.rt env c.context c.startedAt (p.executor != .original) c.model
    let restored := { p with
      loader := c.savedLoader
      executor := if r.realLlm then p.executor else c.savedExecutor }
    let r := r.given loop.2
    -- a failed transaction has expired the row of the case
    if r.realLlm && loop.2.failed then some (restored.endRunner i r (.error .pendingRollback))
    else
      match E.caseResult env r c loop with
      | .error e => some (restored.endRunner i r (.error e))
      | .ok result => some { restored with
          runners := p.runners.set i { r with
            results := r.results ++ [result]
            position := .between } }
  | _ => none

/-- The `INSERT`s of a session: the investigations of its rows are not stored. -/
def flush (r : Runner) : Except Exn Unit :=
  if !r.messages.isEmpty || !r.toolCalls.isEmpty then
    .error (.integrity "investigation_messages_investigation_id_fkey")
  else if 128 < r.trigger.length then .error .statement
  else .ok ()

def runRow (r : Runner) (now : Time) : RegressionTestRun :=
  let metrics := computeRegressionMetrics r.results
  { trigger := r.trigger
    modelName := if r.realLlm then "deepseek-chat" else "mock-regression"
    total := metrics.total
    passed := metrics.passed
    failed := metrics.failed
    metrics
    details := r.results
    runAt := now }

def auditRow (run : RegressionTestRun) : AuditLog where
  action := if run.failed = 0 then "regression.completed" else "regression.failed"
  passed := run.passed
  failed := run.failed

def finish (i : ℕ) (now : Time) (p : Process) : Option Process := do
  let r ← p.runners[i]?
  match r.position, r.remaining with
  | .between, [] =>
    match flush r with
    | .error e => some (p.endRunner i r (.error e))
    | .ok () =>
      let run := runRow r now
      let result : RegressionRunResult := {
        runId := some p.regressionTestRuns.length
        total := run.total
        passed := run.passed
        failed := run.failed }
      -- the notification loads the configuration again; its request may fail
      let outcome := if run.failed = 0 then .ok result
        else (loadEvalConfig E.rt E.int p.tables.systemConfig).map fun _ => result
      some ({ p with
        regressionTestRuns := p.regressionTestRuns ++ [run]
        auditLogs := p.auditLogs ++ [auditRow run] }.endRunner i r outcome)
  | _, _ => none

/-- The unpatched `SkillRegistry.execute`. -/
def execute (k : ℕ) (name : String) (params : Json) (tables : Tables) :
    Except Exn SkillResult × Tables :=
  if name = submitConclusionName then
    (.error (.valueError "submit_conclusion must be handled by AgentLoop"), tables)
  else
    match E.skills name with
    | none => (.ok {
        success := false
        summary := "Unknown skill: " ++ name
        error := some "unknown_skill" }, tables)
    | some skill => skill k params tables

def answer (k : ℕ) (request : LiveRequest) (p : Process) : LiveReply × Process :=
  match request with
  | .dispositionConfig =>
    match p.loader with
    | .original =>
      (.dispositionConfig (loadDispositionConfig E.rt p.tables.systemConfig E.mockEnv), p)
    | .mock => (.dispositionConfig (.ok {}), p)
  | .skill name params =>
    match p.executor with
    | .original =>
      let (result, tables) := E.execute k name params p.tables
      (.skill result, { p with tables := tables })
    | .mock i => (.skill (.ok (mockExecute name)), { p with
        runners := p.runners.modify i (Runner.note name) })

/-- A live investigation takes a reply and writes what follows from it. -/
def receive (k : ℕ) (reply : LiveReply) (p : Process) : Process :=
  let replies := p.replies k ++ [reply]
  { p with
    tables := (E.live k).write replies p.tables
    replies := Function.update p.replies k replies }

def liveStep (k : ℕ) (p : Process) : Option Process :=
  ((E.live k).next (p.replies k)).map fun request =>
    E.receive k (E.answer k request p).1 (E.answer k request p).2

inductive Step
  | service (write : Tables → Tables)
  | live (k : ℕ)
  | begin (args : RunArgs) (tie : ℕ → ℕ)
  | enter (i : ℕ) (now : Time)
  | leave (i : ℕ) (env : CaseEnv)
  | finish (i : ℕ) (now : Time)
  | lockExpires

def Step.isProduction : Step → Bool
  | .service _ => true
  | .live _ => true
  | _ => false

/-- Where awaits on mock objects do not suspend, nothing runs beside a mock case. -/
def admits (p : Process) (l : Step) : Bool :=
  E.mocksSuspend || match l with
    | .leave i _ => p.runners.zipIdx.all fun (r, j) => !r.inMockCase || i == j
    | _ => !p.runners.any Runner.inMockCase

def step (l : Step) (p : Process) : Option Process :=
  if E.admits p l then
    match l with
    | .service write => some { p with tables := write p.tables }
    | .live k => E.liveStep k p
    | .begin args tie => some (E.begin args tie p)
    | .enter i now => E.enter i now p
    | .leave i env => E.leave i env p
    | .finish i now => E.finish i now p
    | .lockExpires => some { p with lock := false }
  else none

/-- The process with these tables, before any regression run. -/
def start (tables : Tables) : Process := { tables }

def system (tables : Tables) : System Process Step where
  init := start tables
  step := E.step

end Environment

end Minsight.Regression

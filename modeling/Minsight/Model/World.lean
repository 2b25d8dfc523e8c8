import Mathlib.Algebra.Order.Ring.Int
import Minsight.Foundation.Arithmetic
import Minsight.Foundation.Tx
import Minsight.Model.Database

/-! # The world a service runs in

A service reads and writes the database through one session. Everything that is not
rolled back with the session (Redis, the clock) is kept apart from it. What the
repository takes from libraries is a parameter.
-/

namespace Minsight

inductive Exn
  | valueError (message : String)
  | runtimeError (message : String)
  | attributeError (message : String)
  | typeError
  | overflowError
  | keyError (message : String)
  | nameError (name : String)
  | regexError
  | integrity (constraint : String)
  | multipleResults
  | missingGreenlet
  | pendingRollback
  | statement
  | external
  deriving DecidableEq, Repr

inductive ClockKind
  | free | nondecreasing | increasing
  deriving DecidableEq, Repr

/-- The clock reading that follows `last` when the clock shows `shown`. -/
def ClockKind.reading : ClockKind → Time → Time → Time
  | .free, _, shown => shown
  | .nondecreasing, last, shown => max last shown
  | .increasing, last, shown => max (last + 1) shown

/-- A clock that showed the first time may show the second one later. -/
def ClockKind.Passes : ClockKind → Time → Time → Prop
  | .free, _, _ => True
  | .nondecreasing, t, t' => t ≤ t'
  | .increasing, t, t' => t ≤ t'

/-- The clock may be read at the second time after it was read at the first one. -/
def ClockKind.Follows : ClockKind → Time → Time → Prop
  | .free, _, _ => True
  | .nondecreasing, t, t' => t ≤ t'
  | .increasing, t, t' => t < t'

namespace ClockKind

variable {k : ClockKind} {t t' t'' : Time}

theorem reading_follows (k : ClockKind) (last shown : Time) :
    k.Follows last (k.reading last shown) := by
  cases k with
  | free => trivial
  | nondecreasing => exact le_max_left _ _
  | increasing => exact lt_of_lt_of_le (lt_add_one last) (le_max_left _ _)

theorem Follows.passes (h : k.Follows t t') : k.Passes t t' := by
  cases k with
  | free => trivial
  | nondecreasing => exact h
  | increasing => exact le_of_lt h

theorem Passes.refl (k : ClockKind) (t : Time) : k.Passes t t := by
  cases k with
  | free => trivial
  | nondecreasing => exact le_rfl
  | increasing => exact le_rfl

theorem Passes.trans (h : k.Passes t t') (h' : k.Passes t' t'') : k.Passes t t'' := by
  cases k with
  | free => trivial
  | nondecreasing => exact le_trans h h'
  | increasing => exact le_trans h h'

theorem Passes.follows (h : k.Passes t t') (h' : k.Follows t' t'') : k.Follows t t'' := by
  cases k with
  | free => trivial
  | nondecreasing => exact le_trans h h'
  | increasing => exact lt_of_le_of_lt h h'

end ClockKind

/-- A start of the agent loop, as an observer of the system records it. -/
structure AgentStart where
  eventId : ℕ
  startedAt : Time
  probe : Bool
  exempt : Bool
  /-- Set when the daily counter is advanced for this start. -/
  counted : Bool := false

structure ToolCallRequest where
  id : String
  name : String
  arguments : Json

structure ChatMessage where
  role : MessageRole
  content : Option String
  toolCalls : List ToolCallRequest := []
  toolCallId : Option String := none

/-- What an observer sees of the agent loop. -/
inductive AgentEvent
  /-- The model is called with a conversation at a step. -/
  | chat (step : ℕ) (messages : List ChatMessage)
  /-- A skill is attempted, by the number of its call; a statement of it may have failed. -/
  | attempt (number : ℕ) (skill : String) (success statementFailed : Bool)
  /-- A submission that closure rejects is answered with a request to go on. -/
  | resumed

/-- What a rollback of the session leaves alone: the clock, Redis and the observer's logs. -/
structure Outside where
  clock : Time := 0
  /-- `investigate:daily_count:{day}` -/
  dailyCount : ℤ → ℕ := fun _ => 0
  /-- `investigate:skip_budget:{event}`, by the time the marker expires. -/
  skipBudget : ℕ → Option Time := fun _ => none
  /-- `freq:1h:…`, with the time the counter expires. -/
  frequency : String → Option (ℕ × Time) := fun _ => none
  /-- `llm_triage:v1:…`, with the time the score expires. -/
  cachedScore : String → Option (ℚ × Time) := fun _ => none
  /-- `config.llm_assist_calls_this_run`, which lives as long as one triage run. -/
  llmAssistCalls : ℕ := 0
  agentStarts : List AgentStart := []
  agentLog : List AgentEvent := []

structure World where
  db : Db := {}
  out : Outside := {}
  /-- A statement of the open transaction has failed, so it takes no more statements. -/
  failed : Bool := false

/-- The fields of a submitted conclusion, apart from the suggested assets. -/
structure ConclusionFields where
  verdict : InvestigationVerdict
  confidence : ℚ
  riskLevel : RiskLevel
  reasoning : String
  recommendedAction : Option String := none
  evidenceRefs : List String := []
  humanQuery : Option String := none
  missingInfo : List String := []
  hypothesesEvaluated : List Json := []
  refutationSummary : Option String := none

/-- The library functions the repository calls, and the session it runs in. -/
structure Runtime where
  clock : ClockKind
  /-- How sums, products and quotients of scores are rounded. -/
  arith : Arithmetic
  /-- `AsyncSession.rollback()` expires every loaded object. -/
  rollbackExpires : Bool
  /-- Reading an attribute of an expired object outside an awaited query raises. -/
  expiredReadRaises : Bool
  /-- The hexadecimal digest of a text. -/
  sha256Hex : String → String
  /-- `text.lower()` -/
  lower : String → String
  /-- `str(value)` -/
  str : Json → String
  /-- `json.dumps(value, sort_keys=True)` -/
  dumps : Json → String
  /-- `re.match(pattern, text)`; `none` when the pattern does not compile. -/
  reMatch : String → String → Option Bool
  /-- `ip_address(text) in ip_network(net)`; `none` when either does not parse. -/
  inCidr : String → String → Option Bool
  /-- The fields of a conclusion with their types checked; `none` when one does not validate. -/
  validateFields : Json → Option ConclusionFields
  /-- `re.findall` for dotted IPv4 addresses. -/
  findIpv4 : String → List String

/-- What reading a loaded object raises after a rollback, if it raises. -/
def Runtime.readAfterRollback (rt : Runtime) : Option Exn :=
  if rt.rollbackExpires && rt.expiredReadRaises then some .missingGreenlet else none

abbrev Session (α : Type) := Tx Exn World α

namespace Session

def query {α : Type} (f : Db → α) : Session α := Tx.read fun w => f w.db

def modify (f : Db → Db) : Session Unit := Tx.write fun w => { w with db := f w.db }

def redis {α : Type} (f : Outside → α) : Session α := Tx.read fun w => f w.out

def setRedis (f : Outside → Outside) : Session Unit := Tx.write fun w => { w with out := f w.out }

/-- A statement of the session; a failed transaction does not take it. -/
def statement (fault : Option Exn) : Session Unit := do
  let failed ← Tx.read (·.failed)
  if failed then Tx.raise .pendingRollback else Tx.fallible fault

/-- The session's state after a rollback: the database as it was committed. -/
def rollback (w w' : World) : World := { w' with db := w.db, failed := false }

abbrev transaction {α : Type} (m : Session α) : Session α := Tx.atomically rollback m

variable {w w' : World} {α β : Type}

@[simp] theorem rollback_db : (rollback w w').db = w.db := rfl

@[simp] theorem rollback_out : (rollback w w').out = w'.out := rfl

@[simp] theorem exec_query (f : Db → α) : Tx.exec (query f) w = (.ok (f w.db), w) := rfl

@[simp] theorem exec_modify (f : Db → Db) :
    Tx.exec (modify f) w = (.ok (), { w with db := f w.db }) := rfl

@[simp] theorem exec_redis (f : Outside → α) : Tx.exec (redis f) w = (.ok (f w.out), w) := rfl

@[simp] theorem exec_setRedis (f : Outside → Outside) :
    Tx.exec (setRedis f) w = (.ok (), { w with out := f w.out }) := rfl

@[simp] theorem exec_query_bind (f : Db → α) (k : α → Session β) :
    Tx.exec (query f >>= k) w = Tx.exec (k (f w.db)) w := Tx.exec_bind_of_ok rfl

@[simp] theorem exec_modify_bind (f : Db → Db) (k : Unit → Session β) :
    Tx.exec (modify f >>= k) w = Tx.exec (k ()) { w with db := f w.db } := Tx.exec_bind_of_ok rfl

@[simp] theorem exec_redis_bind (f : Outside → α) (k : α → Session β) :
    Tx.exec (redis f >>= k) w = Tx.exec (k (f w.out)) w := Tx.exec_bind_of_ok rfl

@[simp] theorem exec_statement_bind_ok {fault : Option Exn} {k : Unit → Session β} {b : β} :
    Tx.exec (statement fault >>= k) w = (.ok b, w') ↔
      w.failed = false ∧ fault = none ∧ Tx.exec (k ()) w = (.ok b, w') := by
  cases h : w.failed with
  | true => simp [statement, h, Tx.exec_bind]
  | false => cases fault <;> simp [statement, h, Tx.exec_bind, Tx.fallible]

@[simp] theorem exec_setRedis_bind (f : Outside → Outside) (k : Unit → Session β) :
    Tx.exec (setRedis f >>= k) w = Tx.exec (k ()) { w with out := f w.out } :=
  Tx.exec_bind_of_ok rfl

end Session

/-- `event.status = status` -/
def Db.setEventStatus (eventId : ℕ) (status : EventStatus) (db : Db) : Db :=
  { db with events := db.events.modify eventId fun e => { e with status := status } }

def Db.addInvestigation (row : Investigation) (db : Db) : Db :=
  { db with investigations := db.investigations ++ [row] }

/-- `utc_now()` when the clock shows `shown`. -/
def utcNow (rt : Runtime) (shown : Time) : Session Time := do
  let last ← Session.redis (·.clock)
  let now := rt.clock.reading last shown
  Session.setRedis fun o => { o with clock := now }
  pure now

@[simp] theorem exec_utcNow_bind {α : Type} {w : World} (rt : Runtime) (shown : Time)
    (k : Time → Session α) :
    Tx.exec (utcNow rt shown >>= k) w =
      Tx.exec (k (rt.clock.reading w.out.clock shown))
        { w with out := { w.out with clock := rt.clock.reading w.out.clock shown } } :=
  Tx.exec_bind_of_ok rfl

/-- `limit or default`, where zero counts as missing. -/
def limitOr (limit : Option ℤ) (default : ℤ) : ℤ :=
  match limit with
  | some n => if n = 0 then default else n
  | none => default

/-- `LIMIT n`, which the database refuses when `n` is negative. -/
def sqlLimit (n : ℤ) : Session ℕ :=
  if n < 0 then Tx.raise .statement else pure n.toNat

theorem exec_sqlLimit_ok {n : ℤ} {k : ℕ} {w w' : World} :
    Tx.exec (sqlLimit n) w = (.ok k, w') ↔ 0 ≤ n ∧ n.toNat = k ∧ w = w' := by
  unfold sqlLimit
  split
  · simp; omega
  · simp [Int.not_lt.mp ‹_›]

def minutes (n : ℤ) : Time := n * 60000000

def hours (n : ℤ) : Time := n * 3600000000

/-- The UTC day of a time. -/
def utcDay (t : Time) : ℤ := t / 86400000000

/-- A runtime in which sample runs are evaluated, given the digests they ask for. -/
def sampleRuntime (clock : ClockKind) (digests : List (String × String)) : Runtime where
  clock := clock
  arith := .binary64
  rollbackExpires := true
  expiredReadRaises := true
  sha256Hex text := (digests.lookup text).getD ""
  lower := String.toLower
  str
    | .str s => s
    | _ => ""
  dumps _ := ""
  reMatch _ _ := none
  inCidr _ _ := none
  validateFields fields := do
    let text ← (fields.get? "verdict").bind Json.asStr?
    let verdict ← [InvestigationVerdict.attackConfirmed, .likelyFalsePositive,
      .insufficientInformation, .needsHumanReview].find? fun v => v.value == text
    some {
      verdict, confidence := 1, riskLevel := .medium, reasoning := ""
      recommendedAction := (fields.get? "recommended_action").bind Json.asStr? }
  findIpv4 _ := []

/-- The digests that sample alerts of the first day are keyed with. -/
def sampleDigests : List (String × String) :=
  [("__unknown_host__|__unknown_user__|uncategorized|1970-01-01T00:00:00",
      "767ec2b83b4866005499a20e4586ded1f3a0d05fef468162ac8e8e7b2cf92de9"),
    ("probe-host|__unknown_user__|uncategorized|1970-01-01T00:00:00",
      "cce082581c86458dc82a64cb7f82e23552958e7568e2ae1bed84f12df17af78e")]

end Minsight

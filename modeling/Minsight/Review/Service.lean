import Minsight.Agent.Orchestrator
import Minsight.Review.Message

/-! # Human review service -/

namespace Minsight

structure HumanReviewConfig where
  enabled : Bool := true
  channel : String := "wecom"
  batchSize : ℤ := 10
  timeoutHours : ℤ := 24
  maxResend : ℤ := 2
  reinvestigationEnabled : Bool := true
  messageMaxChars : ℤ := 1800
  auditSampleEnabled : Bool := true

structure HumanReviewRunResult where
  dispatched : ℕ := 0
  expired : ℕ := 0
  cancelledObsolete : ℕ := 0
  skippedLock : Bool := false
  skippedDisabled : Bool := false
  errors : List (ℕ × Exn) := []
  deriving DecidableEq

structure HandleReplyResult where
  requestId : Option ℕ := none
  eventId : Option ℕ := none
  reinvestigationTriggered : Bool := false
  error : Option String := none
  deriving DecidableEq

/-- What the outside world answers while one request is dispatched. -/
structure DispatchEnv where
  uuid : String
  /-- The message id the channel returns, or what sending raises. -/
  send : String → Except Exn (Option String) := fun _ => .ok none
  now : Time

structure HumanReviewRunEnv where
  lockAcquired : Bool := true
  expireAt : Time
  selectFault : Option Exn := none
  adapterFault : Option Exn := none
  commitFault : Option Exn := none
  tie : ℕ → ℕ := id
  items : ℕ → DispatchEnv

inductive ReplyPoint
  | findRequest | responseExists | redis | commit
  deriving DecidableEq, Repr

structure ReplyEnv where
  answeredAt : Time
  markedAt : Time := answeredAt
  faults : ReplyPoint → Option Exn := fun _ => none
  tie : ℕ → ℕ := id

/-- `_expire_stale_requests`, on one row. -/
def expireStale (cutoff : Time) (r : HumanReviewRequest) : HumanReviewRequest :=
  if r.status = .sent ∧ r.sentAt.any (· < cutoff) then r.withStatus .expired else r

/-- The number of requests of an event that satisfy a condition. -/
def requestCount (db : Db) (eventId : ℕ) (p : HumanReviewRequest → Bool) : ℕ :=
  db.requests.countP fun r => r.eventId == eventId && p r

/-- The condition of `_pick_dispatch_candidates` on an event. -/
def awaitsDispatch (maxResend : ℤ) (db : Db) (eventId : ℕ) (event : Event) : Bool :=
  event.status == .humanPending
    && requestCount db eventId (fun r => r.status == .sent) == 0
    && decide ((requestCount db eventId fun _ => true : ℤ) ≤ maxResend)

/-- `_latest_human_investigation` -/
def latestHumanInvestigation (tie : ℕ → ℕ) (db : Db) (eventId : ℕ) :
    Option (ℕ × InvestigationConclusion) := do
  let (investigationId, _) ← latestInvestigation tie db.investigations eventId
  let conclusion ← db.conclusions.find? fun c => c.investigationId == investigationId
  if conclusion.verdict.asksHuman then some (investigationId, conclusion) else none

structure DispatchCandidate where
  eventId : ℕ
  event : Event
  investigationId : ℕ
  conclusion : InvestigationConclusion

/-- `_pick_dispatch_candidates` -/
def pickDispatchCandidates (tie : ℕ → ℕ) (maxResend : ℤ) (n : ℕ) (db : Db) :
    List DispatchCandidate :=
  let events := Rows.orderLimit (fun x y => (queueOrder tie x y).isLE) n
    (db.events.select (awaitsDispatch maxResend db))
  events.filterMap fun (eventId, event) =>
    if eventIsProbe db eventId then none
    else (latestHumanInvestigation tie db eventId).map fun (investigationId, conclusion) =>
      { eventId, event, investigationId, conclusion }

section

variable (rt : Runtime) (config : HumanReviewConfig)

/-- `_dispatch_one` -/
def dispatchOne (env : DispatchEnv) (c : DispatchCandidate) : Session Unit := do
  let markdown := buildReviewMessage env.uuid c.event c.conclusion config.messageMaxChars
  match env.send markdown with
  | .error e => Tx.raise e
  | .ok externalMsgId =>
    let channel := (ImChannel.ofValue config.channel).getD .wecom
    let now ← utcNow rt env.now
    Session.modify fun db => { db with
      requests := db.requests ++ [{
        uuid := env.uuid
        investigationId := c.investigationId
        eventId := c.eventId
        channel := channel
        question := orText c.conclusion.humanQuery "请协助确认该事件。"
        contextSummary := some markdown
        externalMsgId := externalMsgId
        sentAt := some now }]
      investigations := db.investigations.modify c.investigationId fun i =>
        { i with status := .needsHuman } }

/-- The dispatch loop, which reports a failed dispatch and goes on. -/
def dispatchAll (items : ℕ → DispatchEnv) (result : HumanReviewRunResult) :
    List DispatchCandidate → Session HumanReviewRunResult
  | [] => pure result
  | c :: cs => do
    match ← Tx.attempt (dispatchOne rt config (items c.eventId) c) with
    | .ok _ => dispatchAll items { result with dispatched := result.dispatched + 1 } cs
    | .error e => dispatchAll items { result with errors := result.errors ++ [(c.eventId, e)] } cs

/-- `HumanReviewService.run` -/
def humanReviewRun (env : HumanReviewRunEnv) (limit : Option ℤ) (useLock : Bool) :
    Session HumanReviewRunResult :=
  Session.transaction do
    if useLock && !env.lockAcquired then pure { skippedLock := true }
    else if !config.enabled then pure { skippedDisabled := true }
    else
      let now ← utcNow rt env.expireAt
      let cutoff := now - hours config.timeoutHours
      let before ← Session.query (·.requests)
      Session.modify fun db => { db with requests := db.requests.map (expireStale cutoff) }
      let unexpired ← Session.query (·.requests)
      Session.modify fun db => { db with requests := db.requests.map (cancelObsolete env.tie db) }
      let remaining ← Session.query (·.requests)
      let sent := fun (rows : Rows HumanReviewRequest) => rows.countP fun r => r.status == .sent
      let n ← sqlLimit (limitOr limit config.batchSize)
      Tx.fallible env.selectFault
      let candidates ← Session.query (pickDispatchCandidates env.tie config.maxResend n)
      Tx.fallible env.adapterFault
      let result ← dispatchAll rt config env.items {
        expired := sent before - sent unexpired
        cancelledObsolete := sent unexpired - sent remaining } candidates
      Tx.fallible env.commitFault
      pure result

/-- `_find_request_by_short_code` -/
def findRequestByShortCode (tie : ℕ → ℕ) (db : Db) (shortCode : String) :
    Option (ℕ × HumanReviewRequest) :=
  (Rows.orderLimit (fun x y => (compareTimes y.2.sentAt x.2.sentAt).then
      (compare (tie x.1) (tie y.1)) |>.isLE) 1
    (db.requests.select fun _ r =>
      r.status == .sent && shortCode.toList.isPrefixOf r.uuid.toList)).head?

/-- `_response_exists` -/
def responseExists (db : Db) (requestId : ℕ) (externalMsgId : Option String)
    (rawContent : String) : Except Exn Bool :=
  if (truthyText externalMsgId).isNone then .ok false
  else
    match db.responses.countP fun r => r.requestId == requestId && r.rawContent == rawContent with
    | 0 => .ok false
    | 1 => .ok true
    | _ => .error .multipleResults

/-- The request a reply is for and the text of the reply, or why there is none. -/
def findRepliedRequest (env : ReplyEnv) (db : Db) (rawContent : String)
    (requestId : Option ℕ) : Except String (ℕ × HumanReviewRequest × String) :=
  match requestId with
  | some rid =>
    match db.requests[rid]? with
    | some req =>
      if req.status = .sent then .ok (rid, req, rawContent)
      else .error "Request not found or not awaiting reply"
    | none => .error "Request not found or not awaiting reply"
  | none =>
    match parseReplyContent rawContent with
    | (none, _) => .error "Missing #EVT- tag in reply"
    | (some shortCode, parsedBody) =>
      match findRequestByShortCode env.tie db shortCode with
      | some (rid, req) => .ok (rid, req, parsedBody)
      | none => .error ("No active request for #EVT-" ++ shortCode)

def recordReply (rid : ℕ) (req : HumanReviewRequest) (response : HumanReviewResponse)
    (answeredAt : Time) (db : Db) : Db :=
  { db with
    responses := db.responses ++ [response]
    requests := db.requests.modify rid fun r => { r with
      status := .answered
      answeredAt := some answeredAt }
    events := if config.reinvestigationEnabled
      then db.events.modify req.eventId fun e => { e with status := .pendingReview }
      else db.events
    investigations := db.investigations.modify req.investigationId fun i =>
      if i.status = .needsHuman then { i with status := .completed } else i }

/-- `HumanReviewService.handle_reply` -/
def handleReply (env : ReplyEnv) (rawContent : String) (externalMsgId responder : Option String)
    (requestId : Option ℕ) : Session HandleReplyResult :=
  Session.transaction do
    Tx.fallible (env.faults .findRequest)
    let db ← Session.query id
    match findRepliedRequest env db rawContent requestId with
    | .error e => pure { error := some e }
    | .ok (rid, req, content) =>
      Tx.fallible (env.faults .responseExists)
      match responseExists db rid externalMsgId content with
      | .error e => Tx.raise e
      | .ok true =>
        pure {
          requestId := some rid
          eventId := some req.eventId
          error := some "Duplicate response ignored" }
      | .ok false =>
        let answeredAt ← utcNow rt env.answeredAt
        let triggered := (db.events[req.eventId]?).isSome && config.reinvestigationEnabled
        if triggered then
          Tx.fallible (env.faults .redis)
          let markedAt ← utcNow rt env.markedAt
          markReinvestigation markedAt req.eventId
        Session.modify (recordReply config rid req {
          requestId := rid
          responder := responder
          rawContent := content
          parsedContent := some (parseReplyContent content).2
          triggeredReinvestigation := config.reinvestigationEnabled
          createdAt := answeredAt } answeredAt)
        Tx.fallible (env.faults .commit)
        pure {
          requestId := some rid
          eventId := some req.eventId
          reinvestigationTriggered := triggered }

/-- `HumanReviewService.cancel_request` -/
def cancelRequest (commitFault : Option Exn) (requestId : ℕ) : Session Bool :=
  Session.transaction do
    let db ← Session.query id
    match db.requests[requestId]? with
    | some req =>
      if req.status = .sent then
        Session.modify fun db => { db with
          requests := db.requests.modify requestId fun r => r.withStatus .cancelled }
        Tx.fallible commitFault
        pure true
      else pure false
    | none => pure false

end

end Minsight

import Minsight.Foundation.Connections
import Minsight.Review.Service

/-! # Replies, cancellations and review runs side by side

Webhook replies, the cancel button and the review runs each check the status of a request in
one statement and write it in a later one.
-/

namespace Minsight

open Program

inductive ReviewRow
  | request (id : ℕ) | event (id : ℕ) | investigation (id : ℕ)
  deriving DecidableEq

inductive ReviewWrite
  /-- `UPDATE human_review_requests`; an answer also sets its time. -/
  | status (rid : ℕ) (status : HumanReviewStatus) (answeredAt : Option Time)
  | respond (response : HumanReviewResponse)
  | reopen (eventId : ℕ)
  | investigation (investigationId : ℕ) (status : InvestigationStatus)
  | send (row : HumanReviewRequest)

/-- The tables, and the statuses that committed transactions gave to requests. -/
structure ReviewStore where
  db : Db
  departures : List (ℕ × HumanReviewStatus) := []

/-- One call of `handle_reply`. -/
structure Reply where
  config : HumanReviewConfig := {}
  tie : ℕ → ℕ := id
  rawContent : String
  externalMsgId : Option String := none
  responder : Option String := none
  requestId : Option ℕ := none

inductive ReviewPoint
  | replying (call : Reply)
  | found (call : Reply) (rid : ℕ) (req : HumanReviewRequest) (content : String)
  /-- The reply was not received before. -/
  | fresh (call : Reply) (rid : ℕ) (req : HumanReviewRequest) (content : String)
  | answered (call : Reply) (req : HumanReviewRequest)
  | reopened (req : HumanReviewRequest)
  | resumed
  | cancelling (rid : ℕ)
  | cancelFound (rid : ℕ)
  | cancelled
  | reviewing (config : HumanReviewConfig)
  | staleFound (stale : List ℕ)
  | expired
  | obsoleteFound (obsolete : List ℕ)
  | swept
  | done

inductive ReviewAnswer
  /-- It succeeds, and the clock shows a time. -/
  | now (t : Time)
  /-- What the sweep reads of the events and investigations of the sent requests. -/
  | obsolete (p : ℕ → Bool)
  | dispatch (row : HumanReviewRequest)
  | fault

def ReviewWrite.apply : ReviewWrite → ReviewStore → ReviewStore
  | .status rid st answeredAt, s => {
      db := { s.db with requests := s.db.requests.modify rid fun r => { r with
        status := st
        answeredAt := answeredAt.elim r.answeredAt some } }
      departures := s.departures ++ [(rid, st)] }
  | .respond r, s => { s with db := { s.db with responses := s.db.responses ++ [r] } }
  | .reopen eventId, s => { s with db := s.db.setEventStatus eventId .pendingReview }
  | .investigation i st, s => { s with db := { s.db with
      investigations := s.db.investigations.modify i fun inv => { inv with status := st } } }
  | .send r, s => { s with db := { s.db with requests := s.db.requests ++ [r] } }

def ReviewWrite.row : ReviewWrite → Option ReviewRow
  | .status rid _ _ => some (.request rid)
  | .reopen eventId => some (.event eventId)
  | .investigation i _ => some (.investigation i)
  | .respond _ | .send _ => none

def Reply.response (call : Reply) (rid : ℕ) (content : String) (createdAt : Time) :
    HumanReviewResponse where
  requestId := rid
  responder := call.responder
  rawContent := content
  parsedContent := some (parseReplyContent content).2
  triggeredReinvestigation := call.config.reinvestigationEnabled
  createdAt := createdAt

/--
The statements of `handle_reply`, `cancel_request` and `HumanReviewService.run`. The session
flushes what it has changed before its next query, and only what differs from what it read.
Rows of events and investigations are read and written in one step.
-/
def reviewStatement : ReviewAnswer → ReviewStore → ReviewPoint →
    Option (Statement ReviewWrite ReviewPoint)
  | _, _, .done => none
  | .fault, _, _ => some (.abort .done)
  | .now _, s, .replying call =>
    match findRepliedRequest { answeredAt := 0, tie := call.tie } s.db call.rawContent
        call.requestId with
    | .error _ => some (.abort .done)
    | .ok (rid, req, content) => some (.read (.found call rid req content))
  | .now _, s, .found call rid req content =>
    match responseExists s.db rid call.externalMsgId content with
    | .ok false => some (.read (.fresh call rid req content))
    | _ => some (.abort .done)
  | .now t, _, .fresh call rid req content =>
    some (.write [.status rid .answered (some t), .respond (call.response rid content t)]
      (.answered call req))
  | .now _, s, .answered call req =>
    if (s.db.events[req.eventId]?).any (·.status != .pendingReview) &&
        call.config.reinvestigationEnabled then
      some (.write [.reopen req.eventId] (.reopened req))
    else some (.read (.reopened req))
  | .now _, s, .reopened req =>
    if (s.db.investigations[req.investigationId]?).any (·.status == .needsHuman) then
      some (.write [.investigation req.investigationId .completed] .resumed)
    else some (.read .resumed)
  | .now _, _, .resumed => some (.commit .done)
  | .now _, s, .cancelling rid =>
    if (s.db.requests[rid]?).any (·.status == .sent) then some (.read (.cancelFound rid))
    else some (.abort .done)
  | .now _, _, .cancelFound rid => some (.write [.status rid .cancelled none] .cancelled)
  | .now _, _, .cancelled => some (.commit .done)
  | .now t, s, .reviewing config =>
    if config.enabled then
      let cutoff := t - hours config.timeoutHours
      some (.read (.staleFound ((s.db.requests.select fun _ r =>
        r.status == .sent && r.sentAt.any fun sentAt => decide (sentAt < cutoff)).map Prod.fst)))
    else some (.abort .done)
  | .now _, _, .staleFound stale =>
    some (.write (stale.map fun rid => .status rid .expired none) .expired)
  | .obsolete p, s, .expired =>
    some (.read (.obsoleteFound ((s.db.requests.select fun rid r =>
      r.status == .sent && p rid).map Prod.fst)))
  | .now _, _, .obsoleteFound obsolete =>
    some (.write (obsolete.map fun rid => .status rid .cancelled none) .swept)
  | .dispatch row, _, .swept =>
    some (.write [.send { row with status := .sent },
      .investigation row.investigationId .needsHuman] .swept)
  | .now _, _, .swept => some (.commit .done)
  | _, _, _ => none

def reviewProgram : Program ReviewStore ReviewRow ReviewWrite ReviewPoint ReviewAnswer where
  apply := ReviewWrite.apply
  row := ReviewWrite.row
  statement := reviewStatement

/-- What a call can do at a point, and what it has seen of the database when it does it. -/
inductive ReviewMove (s : ReviewStore) : ReviewPoint → Statement ReviewWrite ReviewPoint → Prop
  | stop (point : ReviewPoint) : ReviewMove s point (.abort .done)
  | find (call : Reply) (rid : ℕ) (req : HumanReviewRequest) (content : String) :
      ReviewMove s (.replying call) (.read (.found call rid req content))
  | compare (call : Reply) (rid : ℕ) (req : HumanReviewRequest) (content : String) :
      ReviewMove s (.found call rid req content) (.read (.fresh call rid req content))
  | answer (call : Reply) (rid : ℕ) (req : HumanReviewRequest) (content : String) (t : Time) :
      ReviewMove s (.fresh call rid req content)
        (.write [.status rid .answered (some t), .respond (call.response rid content t)]
          (.answered call req))
  | reopen (call : Reply) (req : HumanReviewRequest) :
      ReviewMove s (.answered call req) (.write [.reopen req.eventId] (.reopened req))
  | keepEvent (call : Reply) (req : HumanReviewRequest) :
      ReviewMove s (.answered call req) (.read (.reopened req))
  | complete (req : HumanReviewRequest) :
      ReviewMove s (.reopened req)
        (.write [.investigation req.investigationId .completed] .resumed)
  | keepInvestigation (req : HumanReviewRequest) :
      ReviewMove s (.reopened req) (.read .resumed)
  | commitReply : ReviewMove s .resumed (.commit .done)
  | findSent (rid : ℕ) : ReviewMove s (.cancelling rid) (.read (.cancelFound rid))
  | cancel (rid : ℕ) :
      ReviewMove s (.cancelFound rid) (.write [.status rid .cancelled none] .cancelled)
  | commitCancel : ReviewMove s .cancelled (.commit .done)
  | findStale {config : HumanReviewConfig} {stale : List ℕ} (distinct : stale.Nodup) :
      ReviewMove s (.reviewing config) (.read (.staleFound stale))
  | expire (stale : List ℕ) :
      ReviewMove s (.staleFound stale)
        (.write (stale.map fun rid => .status rid .expired none) .expired)
  | findObsolete {obsolete : List ℕ} (distinct : obsolete.Nodup)
      (sent : ∀ rid ∈ obsolete, ∃ r, s.db.requests[rid]? = some r ∧ r.status = .sent) :
      ReviewMove s .expired (.read (.obsoleteFound obsolete))
  | sweep (obsolete : List ℕ) :
      ReviewMove s (.obsoleteFound obsolete)
        (.write (obsolete.map fun rid => .status rid .cancelled none) .swept)
  | dispatch (row : HumanReviewRequest) :
      ReviewMove s .swept (.write [.send { row with status := .sent },
        .investigation row.investigationId .needsHuman] .swept)
  | commitReview : ReviewMove s .swept (.commit .done)

theorem reviewMove_of_statement {a : ReviewAnswer} {s : ReviewStore} {point : ReviewPoint}
    {st : Statement ReviewWrite ReviewPoint} (h : reviewStatement a s point = some st) :
    ReviewMove s point st := by
  unfold reviewStatement at h
  split at h
  · cases h
  · cases h
    exact .stop _
  · split at h
    · cases h
      exact .stop _
    · cases h
      exact .find _ _ _ _
  · split at h
    · cases h
      exact .compare _ _ _ _
    · cases h
      exact .stop _
  · cases h
    exact .answer _ _ _ _ _
  · split at h
    · cases h
      exact .reopen _ _
    · cases h
      exact .keepEvent _ _
  · split at h
    · cases h
      exact .complete _
    · cases h
      exact .keepInvestigation _
  · cases h
    exact .commitReply
  · split at h
    · cases h
      exact .findSent _
    · cases h
      exact .stop _
  · cases h
    exact .cancel _
  · cases h
    exact .commitCancel
  · split at h
    · cases h
      exact .findStale (Rows.select_keys_nodup _ _)
    · cases h
      exact .stop _
  · cases h
    exact .expire _
  · cases h
    refine .findObsolete (Rows.select_keys_nodup _ _) fun rid hrid => ?_
    obtain ⟨⟨i, r⟩, hr, rfl⟩ := List.mem_map.mp hrid
    obtain ⟨hrow, hp⟩ := Rows.mem_select.mp hr
    exact ⟨r, hrow, by simpa using (Bool.and_eq_true_iff.mp hp).1⟩
  · cases h
    exact .sweep _
  · cases h
    exact .dispatch _
  · cases h
    exact .commitReview
  · cases h

inductive ReviewCall
  | reply (call : Reply)
  | cancel (rid : ℕ)
  | review (config : HumanReviewConfig)

def ReviewCall.start : ReviewCall → ReviewPoint
  | .reply call => .replying call
  | .cancel rid => .cancelling rid
  | .review config => .reviewing config

def reviewInit (db : Db) (calls : List ReviewCall) :
    Shared ReviewStore ReviewWrite ReviewPoint where
  db := { db := db }
  connections := calls.map fun call => { point := call.start }

/-- The interleavings of some calls. -/
def reviewSystem (db : Db) (calls : List ReviewCall) :
    System (Shared ReviewStore ReviewWrite ReviewPoint) (ℕ × ReviewAnswer) :=
  reviewProgram.system (reviewInit db calls)

section

variable {db : Db} {rid : ℕ} {req : HumanReviewRequest} {content : String} {call : Reply} {t : Time}

def reopens (config : HumanReviewConfig) (req : HumanReviewRequest) (db : Db) : List ReviewWrite :=
  if (db.events[req.eventId]?).any (·.status != .pendingReview) && config.reinvestigationEnabled
  then [.reopen req.eventId] else []

def completes (req : HumanReviewRequest) (db : Db) : List ReviewWrite :=
  if (db.investigations[req.investigationId]?).any (·.status == .needsHuman)
  then [.investigation req.investigationId .completed] else []

theorem applyAll_reopens (config : HumanReviewConfig) {s : ReviewStore}
    (h : s.db.events = db.events) :
    reviewProgram.applyAll (reopens config req db) s = { s with db := { s.db with
      events := if config.reinvestigationEnabled
        then s.db.events.modify req.eventId fun e => { e with status := .pendingReview }
        else s.db.events } } := by
  unfold reopens
  by_cases henabled : config.reinvestigationEnabled = true
  · rw [if_pos henabled, henabled, Bool.and_true]
    split
    · rfl
    · rename_i hpending
      have hsame : s.db.events.modify req.eventId
          (fun e => { e with status := .pendingReview }) = s.db.events := by
        refine Rows.update_eq_self fun e he => ?_
        rw [← h, he] at hpending
        have hstatus : e.status = .pendingReview := by simpa using hpending
        rw [← hstatus]
      rw [hsame]
      rfl
  · simp [henabled]

variable (db) in
theorem applyAll_completes {s : ReviewStore} (h : s.db.investigations = db.investigations) :
    reviewProgram.applyAll (completes req db) s = { s with db := { s.db with
      investigations := s.db.investigations.modify req.investigationId fun i =>
        if i.status = .needsHuman then { i with status := .completed } else i } } := by
  unfold completes
  split
  · rename_i hneeds
    have hsame : s.db.investigations.modify req.investigationId
        (fun i => { i with status := .completed }) =
        s.db.investigations.modify req.investigationId
          fun i => if i.status = .needsHuman then { i with status := .completed } else i := by
      refine Rows.update_congr fun i hi => ?_
      rw [← h, hi] at hneeds
      have hstatus : i.status = .needsHuman := by simpa using hneeds
      rw [if_pos hstatus]
    rw [← hsame]
    rfl
  · rename_i hneeds
    have hsame : s.db.investigations.modify req.investigationId
        (fun i => if i.status = .needsHuman then { i with status := .completed } else i) =
        s.db.investigations := by
      refine Rows.update_eq_self fun i hi => ?_
      rw [← h, hi] at hneeds
      have hstatus : i.status ≠ .needsHuman := by simpa using hneeds
      rw [if_neg hstatus]
    rw [hsame]
    rfl

theorem applyAll_reply {response : HumanReviewResponse} {config : HumanReviewConfig} :
    (reviewProgram.applyAll ([.status rid .answered (some t), .respond response] ++
      reopens config req db ++ completes req db) { db := db }).db =
      recordReply config rid req response t db := by
  rw [applyAll_append, applyAll_append]
  have hevents : (reviewProgram.applyAll [.status rid .answered (some t), .respond response]
      { db := db }).db.events = db.events := rfl
  rw [applyAll_reopens config hevents]
  exact congrArg ReviewStore.db (applyAll_completes db rfl)

theorem reply_alone
    (hfound : findRepliedRequest { answeredAt := 0, tie := call.tie } db call.rawContent
      call.requestId = .ok (rid, req, content))
    (hfresh : responseExists db rid call.externalMsgId content = .ok false) :
    ∃ s, (reviewSystem db [.reply call]).run (List.replicate 6 (0, .now t))
        (reviewInit db [.reply call]) = some s ∧
      s.db.db = recordReply call.config rid req (call.response rid content t) t db := by
  let answer : List ReviewWrite :=
    [.status rid .answered (some t), .respond (call.response rid content t)]
  let reopen := answer ++ reopens call.config req db
  have hanswered : (reviewProgram.applyAll answer { db := db }).db.events = db.events := rfl
  have hreopened : (reviewProgram.applyAll reopen { db := db }).db.investigations =
      db.investigations := by
    rw [applyAll_append, applyAll_reopens call.config hanswered]
    rfl
  have h₁ : reviewProgram.step (0, .now t) (reviewInit db [.reply call]) = some
      { db := { db := db }, connections := [{ point := .found call rid req content }] } := by
    simp [reviewInit, ReviewCall.start, step_alone, reviewProgram, reviewStatement, hfound]
  have h₂ : reviewProgram.step (0, .now t)
      { db := { db := db }, connections := [{ point := .found call rid req content }] } = some
      { db := { db := db }, connections := [{ point := .fresh call rid req content }] } := by
    simp [step_alone, reviewProgram, reviewStatement, hfresh]
  have h₃ : reviewProgram.step (0, .now t)
      { db := { db := db }, connections := [{ point := .fresh call rid req content }] } = some
      { db := { db := db }, connections := [{ point := .answered call req, log := answer }] } := by
    simp [step_alone, reviewProgram, reviewStatement, answer]
  have h₄ : reviewProgram.step (0, .now t)
      { db := { db := db }, connections := [{ point := .answered call req, log := answer }] } = some
      { db := { db := db }, connections := [{ point := .reopened req, log := reopen }] } := by
    rw [step_alone]
    simp only [reviewProgram, reviewStatement] at hanswered ⊢
    rw [hanswered]
    unfold reopen reopens
    split <;> simp
  have h₅ : reviewProgram.step (0, .now t)
      { db := { db := db }, connections := [{ point := .reopened req, log := reopen }] } = some
      { db := { db := db },
        connections := [{ point := .resumed, log := reopen ++ completes req db }] } := by
    rw [step_alone]
    simp only [reviewProgram, reviewStatement] at hreopened ⊢
    rw [hreopened]
    unfold completes
    split <;> simp
  have h₆ : reviewProgram.step (0, .now t)
      { db := { db := db },
        connections := [{ point := .resumed, log := reopen ++ completes req db }] } = some
      { db := reviewProgram.applyAll (reopen ++ completes req db) { db := db },
        connections := [{ point := .done }] } := by
    rw [step_alone]
    rfl
  refine ⟨{ db := reviewProgram.applyAll (reopen ++ completes req db) { db := db },
            connections := [{ point := .done }] }, ?_, applyAll_reply⟩
  simp only [List.replicate, System.run, reviewSystem, system, h₁, h₂, h₃, h₄, h₅, h₆,
    Option.bind_some]

theorem cancel_alone (hreq : db.requests[rid]? = some req) (hsent : req.status = .sent) :
    ∃ s, (reviewSystem db [.cancel rid]).run (List.replicate 3 (0, .now t))
        (reviewInit db [.cancel rid]) = some s ∧
      s.db.db = { db with
        requests := db.requests.modify rid fun r => r.withStatus .cancelled } := by
  have h₁ : reviewProgram.step (0, .now t) (reviewInit db [.cancel rid]) = some
      { db := { db := db }, connections := [{ point := .cancelFound rid }] } := by
    simp [reviewInit, ReviewCall.start, step_alone, reviewProgram, reviewStatement, hreq, hsent]
  have h₂ : reviewProgram.step (0, .now t)
      { db := { db := db }, connections := [{ point := .cancelFound rid }] } = some
      { db := { db := db },
        connections := [{ point := .cancelled, log := [.status rid .cancelled none] }] } := by
    rw [step_alone]
    rfl
  have h₃ : reviewProgram.step (0, .now t)
      { db := { db := db },
        connections := [{ point := .cancelled, log := [.status rid .cancelled none] }] } = some
      { db := reviewProgram.applyAll [.status rid .cancelled none] { db := db },
        connections := [{ point := .done }] } := by
    rw [step_alone]
    rfl
  refine ⟨{ db := reviewProgram.applyAll [.status rid .cancelled none] { db := db },
            connections := [{ point := .done }] }, ?_, rfl⟩
  simp only [List.replicate, System.run, reviewSystem, system, h₁, h₂, h₃, Option.bind_some]

/-- Closing some requests in turn closes exactly these. -/
theorem getElem?_close {ids : List ℕ} {st : HumanReviewStatus} {j : ℕ} {s : ReviewStore} :
    (reviewProgram.applyAll (ids.map fun i => .status i st none) s).db.requests[j]? =
      (s.db.requests[j]?).map fun r => if j ∈ ids then r.withStatus st else r := by
  induction ids generalizing s with
  | nil => simp
  | cons i ids ih =>
    rw [List.map_cons, applyAll_cons, ih]
    cases hj : s.db.requests[j]? with
    | none => simpa [reviewProgram, ReviewWrite.apply] using hj
    | some r =>
      by_cases hi : i = j
      · subst hi
        simp [reviewProgram, ReviewWrite.apply, hj, HumanReviewRequest.withStatus]
      · have hi' : j ≠ i := Ne.symm hi
        simp [reviewProgram, ReviewWrite.apply, hj, hi, hi']

theorem requests_close {st : HumanReviewStatus} {p : ℕ → HumanReviewRequest → Bool}
    {f : HumanReviewRequest → HumanReviewRequest} {s : ReviewStore}
    (hf : ∀ i r, s.db.requests[i]? = some r → f r = if p i r then r.withStatus st else r) :
    (reviewProgram.applyAll (((s.db.requests.select p).map Prod.fst).map
      fun i => .status i st none) s).db.requests = s.db.requests.map f := by
  apply List.ext_getElem?
  intro j
  rw [getElem?_close, List.getElem?_map]
  cases hj : s.db.requests[j]? with
  | none => rfl
  | some r =>
    have hmem : j ∈ (s.db.requests.select p).map Prod.fst ↔ p j r = true := by
      constructor
      · intro h
        obtain ⟨⟨i, r'⟩, hr', rfl⟩ := List.mem_map.mp h
        obtain ⟨hrow, hp⟩ := Rows.mem_select.mp hr'
        obtain rfl : r = r' := Option.some.inj (hj.symm.trans hrow)
        exact hp
      · intro h
        exact List.mem_map.mpr ⟨(j, r), Rows.mem_select.mpr ⟨hj, h⟩, rfl⟩
    simp only [Option.map_some, hf j r hj, hmem]

/-- The sweep of a review run writes what `humanReviewRun` writes before it dispatches. -/
theorem review_alone {config : HumanReviewConfig} {tie : ℕ → ℕ} (henabled : config.enabled = true) :
    ∃ s obsolete, (reviewSystem db [.review config]).run
        [(0, .now t), (0, .now t), (0, .obsolete obsolete), (0, .now t), (0, .now t)]
        (reviewInit db [.review config]) = some s ∧
      s.db.db.requests = (db.requests.map (expireStale (t - hours config.timeoutHours))).map
        (cancelObsolete tie db) := by
  let cutoff := t - hours config.timeoutHours
  let stale := (db.requests.select fun _ r =>
    r.status == .sent && r.sentAt.any fun sentAt => decide (sentAt < cutoff)).map Prod.fst
  let expiries : List ReviewWrite := stale.map fun rid => .status rid .expired none
  let expired := reviewProgram.applyAll expiries { db := db }
  let obsolete : ℕ → Bool := fun i => (expired.db.requests[i]?).any (isObsolete tie db)
  let swept := (expired.db.requests.select fun i r => r.status == .sent && obsolete i).map Prod.fst
  let cancels : List ReviewWrite := swept.map fun rid => .status rid .cancelled none
  have hexpired : expired.db.requests = db.requests.map (expireStale cutoff) := by
    refine requests_close fun i r _ => ?_
    simp [expireStale]
  have hcancelled : (reviewProgram.applyAll cancels expired).db.requests =
      expired.db.requests.map (cancelObsolete tie db) := by
    refine requests_close fun i r hr => ?_
    simp [cancelObsolete, obsolete, hr]
  have h₁ : reviewProgram.step (0, .now t) (reviewInit db [.review config]) = some
      { db := { db := db }, connections := [{ point := .staleFound stale }] } := by
    simp [reviewInit, ReviewCall.start, step_alone, reviewProgram, reviewStatement, henabled, stale,
      cutoff]
  have h₂ : reviewProgram.step (0, .now t)
      { db := { db := db }, connections := [{ point := .staleFound stale }] } = some
      { db := { db := db }, connections := [{ point := .expired, log := expiries }] } := by
    rw [step_alone]
    rfl
  have h₃ : reviewProgram.step (0, .obsolete obsolete)
      { db := { db := db }, connections := [{ point := .expired, log := expiries }] } = some
      { db := { db := db },
        connections := [{ point := .obsoleteFound swept, log := expiries }] } := by
    rw [step_alone]
    rfl
  have h₄ : reviewProgram.step (0, .now t)
      { db := { db := db },
        connections := [{ point := .obsoleteFound swept, log := expiries }] } = some
      { db := { db := db },
        connections := [{ point := .swept, log := expiries ++ cancels }] } := by
    rw [step_alone]
    rfl
  have h₅ : reviewProgram.step (0, .now t)
      { db := { db := db },
        connections := [{ point := .swept, log := expiries ++ cancels }] } = some
      { db := reviewProgram.applyAll (expiries ++ cancels) { db := db },
        connections := [{ point := .done }] } := by
    rw [step_alone]
    rfl
  refine ⟨{ db := reviewProgram.applyAll (expiries ++ cancels) { db := db },
            connections := [{ point := .done }] }, obsolete, ?_, ?_⟩
  · simp only [System.run, reviewSystem, system, h₁, h₂, h₃, h₄, h₅, Option.bind_some]
  · rw [applyAll_append]
    exact hcancelled.trans (congrArg _ hexpired)

end

end Minsight

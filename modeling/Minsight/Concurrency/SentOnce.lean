import Minsight.Concurrency.Replies

/-! # How a request leaves `SENT`

A request leaves `SENT` once as long as no transaction writes a status that another one has
replaced since it was read. A transaction that has written the request keeps its row locked, so
what it read stays true until it commits.
-/

namespace Minsight

open Program

def statusOfRequest (rid : ℕ) (db : Db) : Option HumanReviewStatus :=
  (db.requests[rid]?).map (·.status)

def departuresOf (rid : ℕ) (s : ReviewStore) : List HumanReviewStatus :=
  (s.departures.filter (·.1 == rid)).map Prod.snd

def responseCount (rid : ℕ) (db : Db) : ℕ := db.responses.countP (·.requestId == rid)

/-- The status of a request, the statuses it was given and the number of its responses. -/
inductive LeftOnce : HumanReviewStatus → List HumanReviewStatus → ℕ → Prop
  | waiting : LeftOnce .sent [] 0
  | answered : LeftOnce .answered [.answered] 1
  | closed {status : HumanReviewStatus} (sent : status ≠ .sent) (answered : status ≠ .answered) :
      LeftOnce status [status] 0

def RequestLaw (rid : ℕ) (s : ReviewStore) : Prop :=
  ∃ status, statusOfRequest rid s.db = some status ∧
    LeftOnce status (departuresOf rid s) (responseCount rid s.db)

/-- When a transaction writes the request, it is still `SENT`: nobody has replaced what it read. -/
def writesSent (rid : ℕ) (s : Shared ReviewStore ReviewWrite ReviewPoint)
    (label : ℕ × ReviewAnswer) : Bool :=
  match s.connections[label.1]? with
  | none => true
  | some c =>
    match reviewStatement label.2 (reviewProgram.applyAll c.log s.db) c.point with
    | some (.write ws _) => !(reviewProgram.locked ws).contains (.request rid) ||
      statusOfRequest rid s.db.db == some .sent
    | _ => true

def givenStatuses (rid : ℕ) (log : List ReviewWrite) : List HumanReviewStatus :=
  log.filterMap fun
    | .status i status _ => if i = rid then some status else none
    | _ => none

def givenResponses (rid : ℕ) (log : List ReviewWrite) : ℕ :=
  log.countP fun
    | .respond response => response.requestId == rid
    | _ => false

section

variable {rid i : ℕ} {log ws : List ReviewWrite} {s : ReviewStore} {w : ReviewWrite}
  {status : HumanReviewStatus}

theorem givenStatuses_append : givenStatuses rid (log ++ ws) =
    givenStatuses rid log ++ givenStatuses rid ws := List.filterMap_append

theorem givenResponses_append : givenResponses rid (log ++ ws) =
    givenResponses rid log + givenResponses rid ws := List.countP_append

theorem request_mem_locked : ReviewRow.request rid ∈ reviewProgram.locked log ↔
    givenStatuses rid log ≠ [] := by
  induction log with
  | nil => simp [Program.locked, givenStatuses]
  | cons w log ih =>
    simp only [Program.locked, givenStatuses] at ih ⊢
    cases w with
    | status i status answeredAt =>
      by_cases hi : i = rid
      · subst hi
        simp [reviewProgram, ReviewWrite.row]
      · have hi' : rid ≠ i := Ne.symm hi
        simp only [List.filterMap_cons, reviewProgram, ReviewWrite.row, List.mem_cons,
          ReviewRow.request.injEq, hi, hi', false_or, if_false]
        exact ih
    | respond response => simpa [reviewProgram, ReviewWrite.row] using ih
    | reopen eventId => simpa [reviewProgram, ReviewWrite.row] using ih
    | investigation j status => simpa [reviewProgram, ReviewWrite.row] using ih
    | send row => simpa [reviewProgram, ReviewWrite.row] using ih

theorem departuresOf_applyAll : departuresOf rid (reviewProgram.applyAll log s) =
    departuresOf rid s ++ givenStatuses rid log := by
  induction log generalizing s with
  | nil => simp [givenStatuses]
  | cons w log ih =>
    rw [applyAll_cons, ih]
    cases w with
    | status i status answeredAt =>
      by_cases hi : i = rid <;>
        simp [departuresOf, givenStatuses, reviewProgram, ReviewWrite.apply, hi]
    | respond response => rfl
    | reopen eventId => rfl
    | investigation j status => rfl
    | send row => rfl

theorem responseCount_applyAll : responseCount rid (reviewProgram.applyAll log s).db =
    responseCount rid s.db + givenResponses rid log := by
  induction log generalizing s with
  | nil => rfl
  | cons w log ih =>
    rw [applyAll_cons, ih]
    cases w with
    | respond response =>
      by_cases hr : response.requestId = rid <;>
        simp [responseCount, givenResponses, reviewProgram, ReviewWrite.apply, hr]
      omega
    | status i status answeredAt => rfl
    | reopen eventId => rfl
    | investigation j status => rfl
    | send row => rfl

/-- The last status a transaction gives to a request is the one it has afterwards. -/
theorem statusOfRequest_applyAll (h : statusOfRequest rid s.db = some status) :
    statusOfRequest rid (reviewProgram.applyAll log s).db =
      some ((givenStatuses rid log).getLast?.getD status) := by
  induction log generalizing s status with
  | nil => exact h
  | cons w log ih =>
    rw [applyAll_cons]
    cases w with
    | status i status' answeredAt =>
      by_cases hi : i = rid
      · subst hi
        have hnext : statusOfRequest i (reviewProgram.apply (.status i status' answeredAt) s).db =
            some status' := by
          obtain ⟨r, hr, -⟩ := Option.map_eq_some_iff.mp h
          simp [statusOfRequest, reviewProgram, ReviewWrite.apply, hr]
        rw [ih hnext]
        simp [givenStatuses, List.getLast?_cons]
      · have hnext : statusOfRequest rid (reviewProgram.apply (.status i status' answeredAt) s).db =
            some status := by
          rw [← h]
          simp [statusOfRequest, reviewProgram, ReviewWrite.apply, hi]
        rw [ih hnext]
        simp [givenStatuses, hi]
    | respond response => exact ih h
    | reopen eventId => exact ih h
    | investigation j status' => exact ih h
    | send row =>
      refine ih ?_
      obtain ⟨r, hr, hstatus⟩ := Option.map_eq_some_iff.mp h
      simp only [statusOfRequest, reviewProgram, ReviewWrite.apply]
      rw [List.getElem?_append_left (Rows.lt_of_getElem? hr), hr]
      exact congrArg some hstatus

/-- A transaction that does not give the request a status leaves it the one it has. -/
theorem statusOfRequest_applyAll_nil (h : statusOfRequest rid s.db = some status)
    (hgiven : givenStatuses rid log = []) :
    statusOfRequest rid (reviewProgram.applyAll log s).db = some status := by
  rw [statusOfRequest_applyAll h, hgiven]
  rfl

end

/-- What a transaction knows at a point where it is about to write the request. -/
def WritesOnce (rid : ℕ) (log : List ReviewWrite) : ReviewPoint → Prop
  | .replying _ | .found .. | .fresh .. | .cancelling _ | .cancelFound _ | .reviewing _ => log = []
  | .staleFound stale => log = [] ∧ stale.Nodup
  | .obsoleteFound obsolete => obsolete.Nodup ∧ (rid ∈ obsolete → givenStatuses rid log = [])
  | _ => True

/-- A transaction gives the request at most one status, and only one that is still `SENT`. -/
structure RequestHeld (rid : ℕ) (s : ReviewStore) (c : Connection ReviewWrite ReviewPoint) :
    Prop where
  held : givenStatuses rid c.log ≠ [] → statusOfRequest rid s.db = some .sent
  once : LeftOnce ((givenStatuses rid c.log).getLast?.getD .sent) (givenStatuses rid c.log)
    (givenResponses rid c.log)
  point : WritesOnce rid c.log c.point

section

variable {rid : ℕ} {log ws : List ReviewWrite} {s : ReviewStore} {a : ReviewAnswer}
  {p q : ReviewPoint} {status : HumanReviewStatus} {given : List HumanReviewStatus} {n : ℕ}

theorem LeftOnce.responses_eq_zero (h : LeftOnce (given.getLast?.getD .sent) given n)
    (hgiven : given = []) : n = 0 := by
  subst hgiven
  cases h with
  | waiting => rfl

theorem LeftOnce.last_ne_sent (h : LeftOnce (given.getLast?.getD .sent) given n)
    (hgiven : given ≠ []) : given.getLast?.getD status ≠ .sent := by
  obtain ⟨st, hst⟩ : ∃ st, given.getLast? = some st := by
    cases hlast : given.getLast? with
    | none => exact absurd (List.getLast?_eq_none_iff.mp hlast) hgiven
    | some st => exact ⟨st, rfl⟩
  rw [hst] at h ⊢
  simp only [Option.getD_some] at h ⊢
  cases h with
  | waiting => cases hst
  | answered => exact nofun
  | closed sent _ => exact sent

/-- Writing one status to each of some requests gives this one that status if it is among them. -/
theorem givenStatuses_map {ids : List ℕ} {st : HumanReviewStatus} (h : ids.Nodup) :
    givenStatuses rid (ids.map fun i => .status i st none) = if rid ∈ ids then [st] else [] := by
  induction ids with
  | nil => rfl
  | cons i ids ih =>
    obtain ⟨hi, hids⟩ := List.nodup_cons.mp h
    have hcons : givenStatuses rid ((i :: ids).map fun i => .status i st none) =
        (if i = rid then [st] else []) ++
          givenStatuses rid (ids.map fun i => .status i st none) := by
      by_cases hir : i = rid <;> simp [givenStatuses, hir]
    rw [hcons, ih hids]
    by_cases hir : i = rid
    · subst hir
      simp [hi]
    · simp [hir, Ne.symm hir]

theorem givenResponses_map {ids : List ℕ} {st : HumanReviewStatus} :
    givenResponses rid (ids.map fun i => .status i st none) = 0 := by
  simp [givenResponses, List.countP_eq_zero]

/-- A write statement gives statuses to requests it has not written yet, or to none. -/
theorem write_once (h : reviewStatement a s p = some (.write ws q)) (hpoint : WritesOnce rid log p)
    (honce : LeftOnce ((givenStatuses rid log).getLast?.getD .sent) (givenStatuses rid log)
      (givenResponses rid log)) :
    LeftOnce ((givenStatuses rid (log ++ ws)).getLast?.getD .sent) (givenStatuses rid (log ++ ws))
      (givenResponses rid (log ++ ws)) ∧ WritesOnce rid (log ++ ws) q := by
  have hkeep (hgiven : givenStatuses rid ws = []) (hcount : givenResponses rid ws = 0) :
      LeftOnce ((givenStatuses rid (log ++ ws)).getLast?.getD .sent)
        (givenStatuses rid (log ++ ws)) (givenResponses rid (log ++ ws)) := by
    rw [givenStatuses_append, givenResponses_append, hgiven, hcount, List.append_nil]
    exact honce
  have hclose {ids : List ℕ} {st : HumanReviewStatus}
      (hws : ids.map (fun i => .status i st none) = ws) (hids : ids.Nodup)
      (hfirst : rid ∈ ids → givenStatuses rid log = []) (hsent : st ≠ .sent)
      (hanswered : st ≠ .answered) :
      LeftOnce ((givenStatuses rid (log ++ ws)).getLast?.getD .sent)
        (givenStatuses rid (log ++ ws)) (givenResponses rid (log ++ ws)) := by
    subst hws
    by_cases hmem : rid ∈ ids
    · rw [givenStatuses_append, givenResponses_append, givenStatuses_map hids, if_pos hmem,
        hfirst hmem, givenResponses_map, honce.responses_eq_zero (hfirst hmem)]
      exact .closed hsent hanswered
    · exact hkeep (by rw [givenStatuses_map hids, if_neg hmem]) givenResponses_map
  cases reviewMove_of_statement h with
  | answer call i req content t =>
    obtain rfl : log = [] := hpoint
    refine ⟨?_, trivial⟩
    by_cases hi : i = rid
    · subst hi
      simpa [givenStatuses, givenResponses, Reply.response] using LeftOnce.answered
    · simpa [givenStatuses, givenResponses, Reply.response, hi] using LeftOnce.waiting
  | reopen call req => exact ⟨hkeep rfl rfl, trivial⟩
  | complete req => exact ⟨hkeep rfl rfl, trivial⟩
  | cancel i =>
    obtain rfl : log = [] := hpoint
    exact ⟨hclose (rfl : [i].map _ = _) (List.nodup_singleton i) (fun _ => rfl) nofun nofun,
      trivial⟩
  | expire stale =>
    obtain ⟨rfl, hstale⟩ := hpoint
    exact ⟨hclose rfl hstale (fun _ => rfl) nofun nofun, trivial⟩
  | sweep obsolete => exact ⟨hclose rfl hpoint.1 hpoint.2 nofun nofun, trivial⟩
  | dispatch row => exact ⟨hkeep rfl rfl, trivial⟩

theorem read_once (h : reviewStatement a (reviewProgram.applyAll log s) p = some (.read q))
    (hpoint : WritesOnce rid log p) (hstatus : statusOfRequest rid s.db = some status)
    (honce : LeftOnce ((givenStatuses rid log).getLast?.getD .sent) (givenStatuses rid log)
      (givenResponses rid log)) :
    WritesOnce rid log q := by
  cases reviewMove_of_statement h with
  | find call i req content => exact hpoint
  | compare call i req content => exact hpoint
  | keepEvent call req => trivial
  | keepInvestigation req => trivial
  | findSent i => exact hpoint
  | findStale distinct => exact ⟨hpoint, distinct⟩
  | findObsolete distinct sent =>
    refine ⟨distinct, fun hmem => ?_⟩
    by_contra hgiven
    obtain ⟨r, hrow, hsent⟩ := sent rid hmem
    have hview := @statusOfRequest_applyAll _ log _ _ hstatus
    rw [statusOfRequest, hrow] at hview
    exact honce.last_ne_sent hgiven ((Option.some.inj hview).symm.trans hsent)

theorem done_of_commit (h : reviewStatement a s p = some (.commit q)) : q = .done := by
  cases reviewMove_of_statement h <;> rfl

theorem done_of_abort (h : reviewStatement a s p = some (.abort q)) : q = .done := by
  cases reviewMove_of_statement h
  rfl

end

section

variable {rid : ℕ} {s : ReviewStore} {c d : Connection ReviewWrite ReviewPoint}

theorem requestHeld_idle {p : ReviewPoint} (h : WritesOnce rid [] p) :
    RequestHeld rid s { point := p } where
  held := fun hgiven => absurd rfl hgiven
  once := .waiting
  point := h

/-- Committing a transaction takes the request out of `SENT` if the transaction wrote it. -/
theorem RequestLaw.commit (h : RequestLaw rid s) (hc : RequestHeld rid s c) :
    RequestLaw rid (reviewProgram.applyAll c.log s) := by
  obtain ⟨status, hstatus, honce⟩ := h
  refine ⟨_, statusOfRequest_applyAll hstatus, ?_⟩
  rw [departuresOf_applyAll, responseCount_applyAll]
  by_cases hgiven : givenStatuses rid c.log = []
  · rw [hgiven, hc.once.responses_eq_zero hgiven, List.append_nil]
    exact honce
  · obtain rfl : status = .sent := Option.some.inj (hstatus.symm.trans (hc.held hgiven))
    generalize departuresOf rid s = given at honce ⊢
    generalize responseCount rid s.db = n at honce ⊢
    cases honce with
    | waiting =>
      rw [List.nil_append, Nat.zero_add]
      exact hc.once
    | closed sent _ => exact absurd rfl sent

theorem RequestHeld.interfere (hd : RequestHeld rid s d)
    (hrows : List.Disjoint (reviewProgram.locked c.log) (reviewProgram.locked d.log)) :
    RequestHeld rid (reviewProgram.applyAll c.log s) d where
  held := fun hgiven => by
    have hfree : givenStatuses rid c.log = [] := by
      by_contra hne
      exact hrows (request_mem_locked.mpr hne) (request_mem_locked.mpr hgiven)
    exact statusOfRequest_applyAll_nil (hd.held hgiven) hfree
  once := hd.once
  point := hd.point

theorem sent_of_writesSent {s : Shared ReviewStore ReviewWrite ReviewPoint} {i : ℕ}
    {a : ReviewAnswer} {ws : List ReviewWrite} {q : ReviewPoint}
    (h : writesSent rid s (i, a) = true) (hc : s.connections[i]? = some c)
    (hstatement : reviewStatement a (reviewProgram.applyAll c.log s.db) c.point =
      some (.write ws q)) (hgiven : givenStatuses rid ws ≠ []) :
    statusOfRequest rid s.db.db = some .sent := by
  simp only [writesSent, hc, hstatement] at h
  rcases Bool.or_eq_true_iff.mp h with hfree | hsent
  · rw [List.contains_iff_mem.mpr (request_mem_locked.mpr hgiven)] at hfree
    cases hfree
  · exact beq_iff_eq.mp hsent

/-- What the transactions know, as long as they write what is still `SENT`. -/
theorem outline_requestLaw (rid : ℕ) :
    reviewProgram.Outline (fun s label => writesSent rid s label = true) (RequestLaw rid)
      (RequestHeld rid) where
  keeps := by
    intro s i a c db' c' hC hc hG hL hsteps
    cases hsteps with
    | read hstatement =>
      obtain ⟨status, hstatus, -⟩ := id hG
      exact ⟨hG, hL.held, hL.once, read_once hstatement hL.point hstatus hL.once⟩
    | write hstatement _ =>
      obtain ⟨honce, hpoint⟩ := write_once hstatement hL.point hL.once
      refine ⟨hG, fun hgiven => ?_, honce, hpoint⟩
      rw [givenStatuses_append] at hgiven
      by_cases hlog : givenStatuses rid c.log = []
      · rw [hlog, List.nil_append] at hgiven
        exact sent_of_writesSent hC hc hstatement hgiven
      · exact hL.held hlog
    | commit hstatement =>
      obtain rfl := done_of_commit hstatement
      exact ⟨hG.commit hL, requestHeld_idle trivial⟩
    | abort hstatement =>
      obtain rfl := done_of_abort hstatement
      exact ⟨hG, requestHeld_idle trivial⟩
  interfere := fun _ _ _ _ _ hd hrows => hd.interfere hrows

end

section

variable {db : Db} {calls : List ReviewCall} {rid : ℕ}
  {s s' : Shared ReviewStore ReviewWrite ReviewPoint} {label : ℕ × ReviewAnswer}

theorem RequestLaw.status_iff {s : ReviewStore} (h : RequestLaw rid s) :
    ∃ status, statusOfRequest rid s.db = some status ∧
      departuresOf rid s = (if status = .sent then [] else [status]) ∧
      responseCount rid s.db = (if status = .answered then 1 else 0) := by
  obtain ⟨status, hstatus, honce⟩ := h
  refine ⟨status, hstatus, ?_⟩
  generalize departuresOf rid s = given at honce ⊢
  generalize responseCount rid s.db = n at honce ⊢
  cases honce with
  | waiting => exact ⟨rfl, rfl⟩
  | answered => exact ⟨rfl, rfl⟩
  | closed sent answered => exact ⟨(if_neg sent).symm, (if_neg answered).symm⟩

theorem requestLaw_of_reachable (hsent : statusOfRequest rid db = some .sent)
    (hnone : responseCount rid db = 0)
    (hs : (reviewSystem db calls).ReachableBy (fun s label => writesSent rid s label = true) s) :
    RequestLaw rid s.db := by
  refine ((outline_requestLaw rid).invariant ⟨.sent, hsent, ?_⟩ ?_ ?_ hs).1
  · exact (show LeftOnce .sent [] _ from hnone ▸ LeftOnce.waiting)
  · intro c hc
    obtain ⟨call, -, rfl⟩ := List.mem_map.mp hc
    exact requestHeld_idle (by cases call <;> rfl)
  · intro c hc
    obtain ⟨call, -, rfl⟩ := List.mem_map.mp hc
    rfl

theorem departuresOf_step (h : reviewProgram.step label s = some s') :
    departuresOf rid s.db <+: departuresOf rid s'.db := by
  obtain ⟨c, db', c', -, hsteps, rfl⟩ := steps_of_step h
  cases hsteps with
  | read => exact List.prefix_rfl
  | write => exact List.prefix_rfl
  | commit =>
    rw [departuresOf_applyAll]
    exact List.prefix_append _ _
  | abort => exact List.prefix_rfl

theorem departuresOf_run {labels : List (ℕ × ReviewAnswer)}
    (h : (reviewSystem db calls).run labels s = some s') :
    departuresOf rid s.db <+: departuresOf rid s'.db := by
  induction labels generalizing s with
  | nil => exact Option.some.inj h ▸ List.prefix_rfl
  | cons label labels ih =>
    obtain ⟨s₁, hstep, hrun⟩ := Option.bind_eq_some_iff.mp h
    exact (departuresOf_step hstep).trans (ih hrun)

/--
In every interleaving in which a transaction writes the request only while it is `SENT`, the
request is given one status when it leaves `SENT` and none before, it is `ANSWERED` exactly when
one response to it is stored, and it stays `ANSWERED` with that one response.
-/
theorem request_leaves_sent_once (hsent : statusOfRequest rid db = some .sent)
    (hnone : responseCount rid db = 0)
    (hs : (reviewSystem db calls).ReachableBy (fun s label => writesSent rid s label = true) s) :
    (∃ status, statusOfRequest rid s.db.db = some status ∧
      departuresOf rid s.db = (if status = .sent then [] else [status]) ∧
      responseCount rid s.db.db = (if status = .answered then 1 else 0)) ∧
    (statusOfRequest rid s.db.db = some .answered → ∀ labels s',
      (reviewSystem db calls).RunsBy (fun s label => writesSent rid s label = true) labels s →
      (reviewSystem db calls).run labels s = some s' →
      statusOfRequest rid s'.db.db = some .answered ∧
        departuresOf rid s'.db = departuresOf rid s.db ∧ responseCount rid s'.db.db = 1) := by
  obtain ⟨status, hstatus, hgiven, hcount⟩ :=
    (requestLaw_of_reachable hsent hnone hs).status_iff
  refine ⟨⟨status, hstatus, hgiven, hcount⟩, fun hanswered labels s' hruns hrun => ?_⟩
  obtain rfl : status = .answered := Option.some.inj (hstatus.symm.trans hanswered)
  obtain ⟨status', hstatus', hgiven', hcount'⟩ :=
    (requestLaw_of_reachable hsent hnone (hs.run hruns hrun)).status_iff
  have hgrows := @departuresOf_run _ _ rid _ _ _ hrun
  rw [hgiven, hgiven', if_neg nofun] at hgrows
  by_cases hsent' : status' = .sent
  · rw [if_pos hsent'] at hgrows
    exact absurd (List.prefix_nil.mp hgrows) nofun
  · rw [if_neg hsent'] at hgrows
    obtain rfl : HumanReviewStatus.answered = status' :=
      List.singleton_inj.mp (hgrows.eq_of_length rfl)
    exact ⟨hstatus', by rw [hgiven', hgiven], hcount'⟩

end

/-- An event that waits for a human, with the request about its investigation. -/
def waitingRequest : Db where
  events := [{ eventKey := "host|user", status := .humanPending, createdAt := 0 }]
  investigations := [{ eventId := 0, modelName := "m", status := .needsHuman, startedAt := 0 }]
  requests := [{
    uuid := "0a1b2c3d"
    investigationId := 0
    eventId := 0
    channel := .wecom
    question := "ok?"
    sentAt := some 0 }]

def replyAndCancel : List ReviewCall :=
  [.reply { rawContent := "ok", requestId := some 0 }, .cancel 0]

/-- The cancellation sees the request before the reply commits, and writes it afterwards. -/
def cancelledAnswer : Shared ReviewStore ReviewWrite ReviewPoint :=
  ((reviewSystem waitingRequest replyAndCancel).run
    [(0, .now 5), (0, .now 5), (1, .now 5), (0, .now 5), (0, .now 5), (0, .now 5), (0, .now 5),
      (1, .now 6), (1, .now 6)] (reviewInit waitingRequest replyAndCancel)).getD
    (reviewInit waitingRequest replyAndCancel)

/-- An answered request is cancelled. -/
theorem reply_is_cancelled :
    statusOfRequest 0 waitingRequest = some .sent ∧ responseCount 0 waitingRequest = 0 ∧
      ∃ s, (reviewSystem waitingRequest replyAndCancel).Reachable s ∧
        departuresOf 0 s.db = [.answered, .cancelled] ∧
        statusOfRequest 0 s.db.db = some .cancelled ∧ responseCount 0 s.db.db = 1 :=
  ⟨rfl, rfl, cancelledAnswer, System.reachable_of_run (System.run_getD (by decide +kernel)),
    by decide +kernel, by decide +kernel, by decide +kernel⟩

/-- The cancellation comes after the reply has committed and finds nothing to cancel. -/
def keptAnswer : Shared ReviewStore ReviewWrite ReviewPoint :=
  ((reviewSystem waitingRequest replyAndCancel).runIf (writesSent 0)
    [(0, .now 5), (0, .now 5), (0, .now 5), (0, .now 5), (0, .now 5), (0, .now 5), (1, .now 6)]
    (reviewInit waitingRequest replyAndCancel)).getD (reviewInit waitingRequest replyAndCancel)

theorem request_leaves_sent_once_reply :
    (∃ status, statusOfRequest 0 keptAnswer.db.db = some status ∧
      departuresOf 0 keptAnswer.db = (if status = .sent then [] else [status]) ∧
      responseCount 0 keptAnswer.db.db = (if status = .answered then 1 else 0)) ∧
    (statusOfRequest 0 keptAnswer.db.db = some .answered → ∀ labels s',
      (reviewSystem waitingRequest replyAndCancel).RunsBy
        (fun s label => writesSent 0 s label = true) labels keptAnswer →
      (reviewSystem waitingRequest replyAndCancel).run labels keptAnswer = some s' →
      statusOfRequest 0 s'.db.db = some .answered ∧
        departuresOf 0 s'.db = departuresOf 0 keptAnswer.db ∧
        responseCount 0 s'.db.db = 1) ∧
    statusOfRequest 0 keptAnswer.db.db = some .answered := by
  have h := @request_leaves_sent_once waitingRequest replyAndCancel 0 keptAnswer rfl rfl
    (System.ReachableBy.runIf .init (System.runIf_getD (by decide +kernel)))
  exact ⟨h.1, h.2, by decide +kernel⟩

end Minsight

import Minsight.Model.World

/-! # Requests superseded by newer investigations -/

namespace Minsight

def latestInvestigation (tie : ℕ → ℕ) (investigations : Rows Investigation) (eventId : ℕ) :
    Option (ℕ × Investigation) :=
  (Rows.orderLimit (Rows.descending (·.2.startedAt) fun x => tie x.1) 1
    (investigations.select fun _ i => i.eventId == eventId)).head?

def HumanReviewRequest.withStatus (status : HumanReviewStatus) (r : HumanReviewRequest) :
    HumanReviewRequest :=
  { r with status := status }

/-- `cancel_obsolete_sent_reviews_for_event`, on one row. -/
def cancelObsoleteForEvent (eventId currentInvestigationId : ℕ) (eventStatus : EventStatus)
    (r : HumanReviewRequest) : HumanReviewRequest :=
  if r.eventId = eventId ∧ r.status = .sent ∧
      (eventStatus ≠ .humanPending ∨ r.investigationId ≠ currentInvestigationId) then
    r.withStatus .cancelled
  else r

/-- A sent request that fits neither its event's state nor the latest investigation. -/
def isObsolete (tie : ℕ → ℕ) (db : Db) (r : HumanReviewRequest) : Bool :=
  match db.events[r.eventId]? with
  | none => true
  | some event =>
    if event.status ≠ .humanPending then true
    else
      match latestInvestigation tie db.investigations r.eventId with
      | none => true
      | some (latest, _) => latest ≠ r.investigationId

/-- `cancel_all_obsolete_sent_reviews`, on one row. -/
def cancelObsolete (tie : ℕ → ℕ) (db : Db) (r : HumanReviewRequest) : HumanReviewRequest :=
  if r.status = .sent ∧ isObsolete tie db r then r.withStatus .cancelled else r

end Minsight

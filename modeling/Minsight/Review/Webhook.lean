import Minsight.Review.RoundTrip

/-! # The inbound webhook

Whoever can reach the webhook can answer a review request: the signature of a callback is verified
when the address of the webhook is confirmed, and not when a message is posted to it.
-/

namespace Minsight

open Tx Session

/-- `verify_callback`, where the settings hold this callback token. -/
def verifyCallback (sha1Hex : String → String) (token msgSignature timestamp nonce echoStr : String) :
    Bool :=
  if token = "" then false
  else
    let parts := [token, timestamp, nonce, echoStr].mergeSort fun a b => decide (a ≤ b)
    sha1Hex (joinText "" parts) == msgSignature

/-- A request that is posted to the webhook. -/
structure WebhookRequest where
  contentType : String := ""
  msgSignature : Option String := none
  timestamp : Option String := none
  nonce : Option String := none
  /-- What the body is as JSON, or what reading it as JSON raises. -/
  json : Except Exn Json
  /-- The body as a text. -/
  text : String

/-- The request carries a signature of a part of it that is valid under the token. -/
def WebhookRequest.signed (sha1Hex : String → String) (token : String)
    (signedPart : WebhookRequest → String) (request : WebhookRequest) : Bool :=
  match request.msgSignature, request.timestamp, request.nonce with
  | some msgSignature, some timestamp, some nonce =>
    verifyCallback sha1Hex token msgSignature timestamp nonce (signedPart request)
  | _, _, _ => false

structure InboundReply where
  rawContent : String
  externalMsgId : Option String := none
  responder : Option String := none

inductive WebhookResponse
  | licenseRequired
  | ignored
  | error (detail : String)
  | ok (requestId : Option ℕ) (reinvestigationTriggered : Bool)
  deriving DecidableEq

/-- `body.get(key) or body.get(other)` -/
def getOr (body : Json) (key other : String) : Option Json :=
  ((body.get? key).filter Json.truthy).or ((body.get? other).filter Json.truthy)

structure WebhookDelivery where
  request : WebhookRequest
  env : ReplyEnv

section

variable (rt : Runtime) (config : HumanReviewConfig)

/-- `parse_callback_body` -/
def parseCallbackBody : Json → Except Exn (Option InboundReply)
  | .str content => .ok (some { rawContent := content })
  | .obj fields =>
    match getOr (.obj fields) "Content" "content" with
    | none => .ok none
    | some content => .ok (some {
        rawContent := rt.str content
        externalMsgId := some ((getOr (.obj fields) "MsgId" "msgid").elim "" rt.str)
        responder := truthyText
          (some ((getOr (.obj fields) "FromUserName" "from_user").elim "" rt.str)) })
  | _ => .error (.attributeError "get")

def callbackBody (request : WebhookRequest) : Except Exn Json :=
  if occursIn "application/json" request.contentType then request.json
  else .ok (.obj [("Content", .str request.text)])

/-- `wecom_webhook_inbound` -/
def wecomWebhookInbound (licensed : Bool) (delivery : WebhookDelivery) : Session WebhookResponse :=
  if !licensed then pure .licenseRequired
  else
    match (callbackBody delivery.request).bind (parseCallbackBody rt) with
    | .error e => Tx.raise e
    | .ok none => pure .ignored
    | .ok (some inbound) => do
      let result ← handleReply rt config delivery.env inbound.rawContent inbound.externalMsgId
        inbound.responder none
      match result.error, result.requestId with
      | some detail, none => pure (.error detail)
      | _, requestId => pure (.ok requestId result.reinvestigationTriggered)

def serveWebhook (licensed : Bool) (deliveries : List WebhookDelivery) (w : World) : World :=
  deliveries.foldl (fun w delivery =>
    (exec (wecomWebhookInbound rt config licensed delivery) w).2) w

end

section

variable {rt : Runtime} {config : HumanReviewConfig} {licensed : Bool} {tie : ℕ → ℕ} {db : Db}
  {code : String} {rid : ℕ} {req : HumanReviewRequest} {w : World}

/-- No review request waits for a reply. -/
def NoneSent (db : Db) : Prop := ∀ r ∈ db.requests, r.status ≠ .sent

theorem NoneSent.finds_none (h : NoneSent db) : findRequestByShortCode tie db code = none := by
  apply List.head?_eq_none_iff.mpr
  apply List.eq_nil_iff_forall_not_mem.mpr
  rintro ⟨rid, req⟩ hmem
  obtain ⟨hrow, hsent⟩ := Rows.mem_select.mp (Rows.mem_of_mem_orderLimit hmem)
  obtain ⟨hsent, -⟩ := Bool.and_eq_true_iff.mp hsent
  exact h req (List.mem_of_getElem? hrow) (beq_iff_eq.mp hsent)

theorem NoneSent.handleReply_db {env : ReplyEnv} {rawContent : String}
    {externalMsgId responder : Option String} (h : NoneSent w.db) :
    (exec (handleReply rt config env rawContent externalMsgId responder none) w).2.db = w.db := by
  have hnone : ∃ e, findRepliedRequest env w.db rawContent none = .error e := by
    unfold findRepliedRequest
    rcases parseReplyContent rawContent with ⟨_ | code, body⟩
    · exact ⟨_, rfl⟩
    · simp only [h.finds_none]
      exact ⟨_, rfl⟩
  obtain ⟨e, he⟩ := hnone
  rw [handleReply, Session.transaction, exec_atomically]
  split
  case h_1 r w' hrun =>
    simp only [exec_fallible_bind_ok, exec_query_bind, id_eq, he, exec_pure, Prod.mk.injEq] at hrun
    rw [← hrun.2.2]
  case h_2 e' w' hrun => exact rollback_db

theorem wecomWebhookInbound_db {delivery : WebhookDelivery} (h : licensed = true → NoneSent w.db) :
    (exec (wecomWebhookInbound rt config licensed delivery) w).2.db = w.db := by
  unfold wecomWebhookInbound
  cases licensed with
  | false => rfl
  | true =>
    rw [if_neg (by simp)]
    split
    · rfl
    · rfl
    · rename_i inbound hparsed
      have hdb : (exec (handleReply rt config delivery.env inbound.rawContent inbound.externalMsgId
          inbound.responder none) w).2.db = w.db := (h rfl).handleReply_db
      rw [exec_bind]
      split
      case h_1 result w' hreply =>
        rw [hreply] at hdb
        split
        · exact hdb
        · exact hdb
      case h_2 e w' hreply =>
        rw [hreply] at hdb
        exact hdb

theorem serveWebhook_db {deliveries : List WebhookDelivery} (h : licensed = true → NoneSent w.db) :
    (serveWebhook rt config licensed deliveries w).db = w.db := by
  induction deliveries generalizing w with
  | nil => rfl
  | cons delivery deliveries ih =>
    have hdb : (exec (wecomWebhookInbound rt config licensed delivery) w).2.db = w.db :=
      wecomWebhookInbound_db h
    rw [serveWebhook, List.foldl_cons]
    refine (ih ?_).trans hdb
    rw [hdb]
    exact h

theorem findRequestByShortCode_found (hrow : db.requests[rid]? = some req)
    (hsent : req.status = .sent) (hcode : code.toList.isPrefixOf req.uuid.toList = true) :
    ∃ rid req, findRequestByShortCode tie db code = some (rid, req) ∧
      db.requests[rid]? = some req ∧ req.status = .sent := by
  have hmem : (rid, req) ∈ db.requests.select fun _ r =>
      r.status == .sent && code.toList.isPrefixOf r.uuid.toList :=
    Rows.mem_select.mpr ⟨hrow, by rw [hsent, hcode]; rfl⟩
  cases hhead : findRequestByShortCode tie db code with
  | none => exact absurd hhead (Rows.head_orderLimit_ne_none hmem)
  | some found =>
    obtain ⟨rid', req'⟩ := found
    obtain ⟨hrow', hp⟩ := Rows.mem_select.mp (Rows.mem_of_mem_orderLimit (List.mem_of_head? hhead))
    obtain ⟨hsent', -⟩ := Bool.and_eq_true_iff.mp hp
    exact ⟨rid', req', rfl, hrow', beq_iff_eq.mp hsent'⟩

theorem handleReply_answers {answeredAt : Time} {rawContent : String}
    {externalMsgId responder : Option String} (hid : truthyText externalMsgId = none)
    (hcode : extractShortCode rawContent = some code)
    (hfound : findRequestByShortCode tie w.db code = some (rid, req)) :
    ∃ response t, (exec (handleReply rt config { answeredAt := answeredAt, tie := tie } rawContent
      externalMsgId responder none) w).2.db = recordReply config rid req response t w.db := by
  have hfinds : findRepliedRequest { answeredAt := answeredAt, tie := tie } w.db rawContent none =
      .ok (rid, req, (parseReplyContent rawContent).2) := by
    simp only [findRepliedRequest, parseReplyContent, hcode, hfound]
  suffices h : ∃ r w' response t, exec (handleReply rt config { answeredAt := answeredAt, tie := tie }
      rawContent externalMsgId responder none) w = (.ok r, w') ∧
        w'.db = recordReply config rid req response t w.db by
    obtain ⟨r, w', response, t, hrun, hdb⟩ := h
    exact ⟨response, t, by rw [hrun]; exact hdb⟩
  simp only [handleReply, Session.transaction, exec_atomically_ok, fallible, exec_query_bind,
    exec_bind_pure, hfinds, id_eq, responseExists, hid, Option.isNone_none, if_true]
  split
  · exact ⟨_, _, _, _, rfl, rfl⟩
  · exact ⟨_, _, _, _, rfl, rfl⟩

/-- A request without a signature whose body is the tag of a review request. -/
def forgedDelivery (uuid : String) : WebhookDelivery where
  request := { json := .error (.valueError ""), text := "#EVT-" ++ requestShortCode uuid }
  env := { answeredAt := 0 }

theorem forgedDelivery_body (hstr : ∀ s, rt.str (.str s) = s) (uuid : String) :
    (callbackBody (forgedDelivery uuid).request).bind (parseCallbackBody rt) = .ok (some {
      rawContent := "#EVT-" ++ requestShortCode uuid, externalMsgId := some "" }) := by
  have hplain : occursIn "application/json" "" = false := by decide +kernel
  have htruthy : (Json.str ("#EVT-" ++ requestShortCode uuid)).truthy = true := by
    simp [Json.truthy]
  have hcontent : getOr (.obj [("Content", .str ("#EVT-" ++ requestShortCode uuid))]) "Content"
      "content" = some (.str ("#EVT-" ++ requestShortCode uuid)) := by
    rw [getOr, show Json.get? (.obj [("Content", .str ("#EVT-" ++ requestShortCode uuid))])
      "Content" = some (.str ("#EVT-" ++ requestShortCode uuid)) from rfl, Option.filter_some,
      if_pos htruthy]
    rfl
  rw [callbackBody, forgedDelivery, if_neg (by rw [hplain]; simp)]
  change parseCallbackBody rt (.obj [("Content", .str ("#EVT-" ++ requestShortCode uuid))]) = _
  rw [parseCallbackBody, hcontent]
  dsimp only
  rw [hstr]
  rfl

theorem forgedDelivery_answers (hstr : ∀ s, rt.str (.str s) = s)
    (hrow : w.db.requests[rid]? = some req) (hsent : req.status = .sent) (huuid : IsUuid req.uuid) :
    (exec (wecomWebhookInbound rt config true (forgedDelivery req.uuid)) w).2.db ≠ w.db := by
  have hprefix : (requestShortCode req.uuid).toList.isPrefixOf req.uuid.toList = true := by
    rw [huuid.shortCode_toList]
    exact List.isPrefixOf_iff_prefix.mpr (List.take_prefix 8 _)
  obtain ⟨rid, found, hfound, hrow, hsent⟩ :=
    @findRequestByShortCode_found id _ _ _ _ hrow hsent hprefix
  obtain ⟨response, t, hdb⟩ := @handleReply_answers rt config id _ rid found w 0 _ (some "") none
    rfl (extractShortCode_tag huuid) hfound
  have hsame : (exec (wecomWebhookInbound rt config true (forgedDelivery req.uuid)) w).2.db =
      recordReply config rid found response t w.db := by
    rw [wecomWebhookInbound, if_neg (by simp), forgedDelivery_body hstr]
    dsimp only
    rw [← hdb, exec_bind]
    split
    case h_1 result w' hreply =>
      rw [show (forgedDelivery req.uuid).env = { answeredAt := 0, tie := id } from rfl] at hreply
      rw [hreply]
      split <;> rfl
    case h_2 e w' hreply =>
      rw [show (forgedDelivery req.uuid).env = { answeredAt := 0, tie := id } from rfl] at hreply
      rw [hreply]
  rw [hsame]
  intro h
  have hrows : (recordReply config rid found response t w.db).requests[rid]? =
      some { found with status := .answered, answeredAt := some t } := by
    rw [recordReply]
    dsimp only
    rw [List.getElem?_modify_eq, hrow]
    rfl
  rw [h, hrow] at hrows
  have hstatus := congrArg HumanReviewRequest.status (Option.some.inj hrows)
  rw [hsent] at hstatus
  cases hstatus

/--
Sequences of requests that agree on the signed ones leave the same database.
-/
def WebhookNoninterference (rt : Runtime) (config : HumanReviewConfig) (licensed : Bool)
    (signed : WebhookRequest → Bool) (w : World) : Prop :=
  ∀ xs ys : List WebhookDelivery,
    xs.filter (fun d => signed d.request) = ys.filter (fun d => signed d.request) →
    (serveWebhook rt config licensed xs w).db = (serveWebhook rt config licensed ys w).db

/--
What the webhook leaves depends on the signed requests only, exactly if it is not licensed or no
review request waits for a reply.
-/
theorem webhook_noninterference_iff (hstr : ∀ s, rt.str (.str s) = s)
    (huuids : ∀ r ∈ w.db.requests, IsUuid r.uuid)
    (sha1Hex : String → String) (token : String) (signedPart : WebhookRequest → String) :
    WebhookNoninterference rt config licensed (·.signed sha1Hex token signedPart) w ↔
      (licensed = true → NoneSent w.db) := by
  constructor
  · rintro hsame rfl r hr hsent
    obtain ⟨rid, hrow⟩ := List.mem_iff_getElem?.mp hr
    exact forgedDelivery_answers hstr hrow hsent (huuids r hr) (hsame [forgedDelivery r.uuid] [] rfl)
  · intro h xs ys _
    rw [serveWebhook_db h, serveWebhook_db h]

end

/-- A world whose only review request was sent, or was answered. -/
def waitingWorld (status : HumanReviewStatus) : World where
  db := { requests := [{ uuid := sampleUuid, investigationId := 0, eventId := 0, channel := .wecom
                         question := "?", status }] }

theorem waitingWorld_uuids {status : HumanReviewStatus} :
    ∀ r ∈ (waitingWorld status).db.requests, IsUuid r.uuid := by
  intro r hr
  obtain rfl := List.mem_singleton.mp hr
  exact sampleUuid_isUuid

/-- A request without a signature answers the review request. -/
theorem unsigned_reply_is_taken :
    ¬ ∀ (rt : Runtime) (config : HumanReviewConfig) (licensed : Bool) (sha1Hex : String → String)
      (token : String) (w : World), WebhookNoninterference rt config licensed
        (·.signed sha1Hex token WebhookRequest.text) w := by
  intro h
  have hanswered := @forgedDelivery_answers (sampleRuntime .nondecreasing []) {} 0 _
    (waitingWorld .sent) (fun _ => rfl) rfl rfl sampleUuid_isUuid
  exact hanswered (h _ {} true id "token" (waitingWorld .sent) [forgedDelivery sampleUuid] [] rfl)

theorem webhook_noninterference_answered :
    WebhookNoninterference (sampleRuntime .nondecreasing []) {} true
      (·.signed id "token" WebhookRequest.text) (waitingWorld .answered) := by
  refine (webhook_noninterference_iff (fun _ => rfl) waitingWorld_uuids id "token" _).mpr ?_
  rintro - r hr
  obtain rfl := List.mem_singleton.mp hr
  decide

end Minsight

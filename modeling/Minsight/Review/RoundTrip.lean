import Minsight.Lifecycle.ReviewSteps
import Minsight.Review.Tags

/-! # The tag of a review message

The message ends with the tag of its request, and the reply is routed by the first tag in it. The
texts of the event and of the conclusion come before the tag, and a message that is too long is
cut at its end.
-/

namespace Minsight

open Tx Session

/-- The digits of `str(uuid)`. -/
def IsUuid (uuid : String) : Prop :=
  uuid.toList.length = 32 ∧ ∀ c ∈ uuid.toList, isHexDigit c = true ∧ c.toLower = c

def reviewText (event : Event) (conclusion : InvestigationConclusion) : String :=
  let missing := joinText "\n" ((conclusion.missingInfo.take 5).map ("- " ++ ·))
  "## 安全告警协查请求\n\n**事件** " ++ orText event.title (event.primaryCategory.getD "None")
    ++ " | 风险 " ++ fixed0 event.riskScore ++ " | " ++ orText event.primaryCategory "-"
    ++ "\n**主机** " ++ orText event.aggregateHostName "-"
    ++ " | **用户** " ++ orText event.aggregateUserName "-"
    ++ "\n**Agent 结论** " ++ verdictLabel conclusion.verdict
    ++ "（置信度 " ++ fixed2 conclusion.confidence ++ "）\n\n**已知推理**\n"
    ++ takeText 500 conclusion.reasoning
    ++ "\n\n**缺失信息**\n" ++ (if missing = "" then "- （无）" else missing)
    ++ "\n\n**请协助确认**\n" ++ orText conclusion.humanQuery "请补充现场情况。"
    ++ "\n\n---\n请回复并保留标签："

/--
The text leaves room for the tag and holds no other one; or it is cut, but what is left of it
quotes the tag.
-/
def TagSurvives (maxChars : ℤ) (uuid : String) (event : Event)
    (conclusion : InvestigationConclusion) : Prop :=
  let text := reviewText event conclusion
  let short := requestShortCode uuid
  if (text.length : ℤ) + 30 ≤ maxChars then
    extractShortCode text = none ∨ extractShortCode text = some short
  else 20 ≤ maxChars ∧ extractShortCode (takeText (maxChars - 20).toNat text) = some short

section

variable {uuid short : String} {event : Event} {conclusion : InvestigationConclusion}
  {maxChars : ℤ}

theorem append_tag {text intro before tag middle ending : String} (h : intro = before ++ tag) :
    text ++ intro ++ short ++ middle ++ short ++ ending =
      text ++ before ++ (tag ++ short ++ middle ++ short ++ ending) := by
  subst h
  simp only [String.append_assoc]

theorem reviewBody_eq : reviewBody short event conclusion = reviewText event conclusion ++
    ("`#EVT-" ++ short ++ "`\n协查单号：" ++ short ++ "\n") :=
  append_tag rfl

theorem reviewBody_toList : (reviewBody short event conclusion).toList =
    (reviewText event conclusion).toList ++
      '`' :: (tagHead ++ short.toList ++ ('`' :: ("\n协查单号：".toList ++ short.toList ++ ['\n']))) := by
  have htag : "`#EVT-".toList = '`' :: tagHead := rfl
  have hclosing : "`\n协查单号：".toList = '`' :: "\n协查单号：".toList := rfl
  have hend : "\n".toList = ['\n'] := rfl
  rw [reviewBody_eq, String.toList_append, String.toList_append, String.toList_append,
    String.toList_append, String.toList_append, htag, hclosing, hend]
  simp only [List.append_assoc, List.cons_append]

theorem IsUuid.shortCode_toList (h : IsUuid uuid) :
    (requestShortCode uuid).toList = uuid.toList.take 8 := by
  rw [requestShortCode, String.toList_ofList]
  calc (uuid.toList.take 8).map Char.toLower
    _ = (uuid.toList.take 8).map id :=
      List.map_congr_left fun c hc => (h.2 c (List.mem_of_mem_take hc)).2
    _ = uuid.toList.take 8 := List.map_id _

theorem IsUuid.length_shortCode (h : IsUuid uuid) : (requestShortCode uuid).toList.length = 8 := by
  rw [h.shortCode_toList, List.length_take, h.1]
  rfl

theorem IsUuid.all_hex (h : IsUuid uuid) :
    (requestShortCode uuid).toList.all isHexDigit = true := by
  rw [h.shortCode_toList]
  exact List.all_eq_true.mpr fun c hc => (h.2 c (List.mem_of_mem_take hc)).1

theorem IsUuid.lower (h : IsUuid uuid) :
    String.ofList ((requestShortCode uuid).toList.map Char.toLower) = requestShortCode uuid := by
  rw [List.map_congr_left (g := id) fun c hc => (h.2 c (List.mem_of_mem_take
    (h.shortCode_toList ▸ hc))).2, List.map_id, String.ofList_toList]

theorem extractShortCode_eq (content : String) : extractShortCode content =
    (firstCode content.toList).map fun code => String.ofList (code.map Char.toLower) := by
  rw [extractShortCode, firstCode, Option.map_map]
  rfl

theorem length_reviewBody (h : short.toList.length = 8) :
    (reviewBody short event conclusion).length = (reviewText event conclusion).length + 30 := by
  rw [← String.length_toList, ← String.length_toList, reviewBody_toList]
  have hclosing : "\n协查单号：".toList.length = 6 := rfl
  simp only [List.length_append, List.length_cons, List.length_nil, h, hclosing, tagHead]

theorem extractShortCode_reviewBody (h : IsUuid uuid) :
    extractShortCode (reviewBody (requestShortCode uuid) event conclusion) =
      (extractShortCode (reviewText event conclusion)).or (some (requestShortCode uuid)) := by
  rw [extractShortCode_eq, extractShortCode_eq, reviewBody_toList, firstCode_append (by decide),
    firstCode_tag h.length_shortCode h.all_hex]
  cases firstCode (reviewText event conclusion).toList with
  | none => exact congrArg some h.lower
  | some code => rfl

theorem extractShortCode_cut {n : ℕ} (hn : n ≤ (reviewText event conclusion).length + 13) :
    extractShortCode (takeText n (reviewBody short event conclusion) ++ "\n...(已截断)") =
      extractShortCode (takeText n (reviewText event conclusion)) := by
  rw [← String.length_toList] at hn
  have hsuffix : "\n...(已截断)".toList = '\n' :: "...(已截断)".toList := rfl
  have hnone : firstCode "...(已截断)".toList = none := rfl
  rw [extractShortCode_eq, extractShortCode_eq, String.toList_append, hsuffix,
    firstCode_append (by decide), hnone, Option.or_none, takeText, takeText, String.toList_ofList,
    String.toList_ofList, reviewBody_toList, List.take_append]
  by_cases hshort : n ≤ (reviewText event conclusion).toList.length
  · rw [Nat.sub_eq_zero_of_le hshort, List.take_zero, List.append_nil]
  · obtain ⟨k, hk⟩ := Nat.exists_eq_add_of_lt (Nat.lt_of_not_le hshort)
    have hrest : n - (reviewText event conclusion).toList.length = k + 1 := by omega
    rw [hrest, List.take_succ_cons, firstCode_append (by decide)]
    -- what is left of the tag is too short for a code
    have hnocode (cs : List Char) : firstCode (cs.take k) = none :=
      firstCode_short (by rw [List.length_take]; omega)
    rw [hnocode, Option.or_none]

theorem length_takeText {n : ℕ} {text : String} : (takeText n text).length = min n text.length := by
  rw [takeText, String.length_ofList, List.length_take, String.length_toList]

theorem length_cut {text : String} : (text ++ "\n...(已截断)").length = text.length + 9 := by
  have hsuffix : "\n...(已截断)".length = 9 := rfl
  rw [String.length_append, hsuffix]

theorem buildReviewMessage_fitting (h : IsUuid uuid)
    (hfits : ((reviewText event conclusion).length : ℤ) + 30 ≤ maxChars) :
    buildReviewMessage uuid event conclusion maxChars =
      reviewBody (requestShortCode uuid) event conclusion :=
  if_neg (by rw [length_reviewBody h.length_shortCode]; omega)

theorem buildReviewMessage_cut (h : IsUuid uuid)
    (hfits : ¬((reviewText event conclusion).length : ℤ) + 30 ≤ maxChars) :
    buildReviewMessage uuid event conclusion maxChars =
      sliceText (maxChars - 20) (reviewBody (requestShortCode uuid) event conclusion)
        ++ "\n...(已截断)" :=
  if_pos (by rw [length_reviewBody h.length_shortCode]; omega)

theorem buildReviewMessage_take (h : IsUuid uuid)
    (hfits : ¬((reviewText event conclusion).length : ℤ) + 30 ≤ maxChars) (hcut : 20 ≤ maxChars) :
    buildReviewMessage uuid event conclusion maxChars =
      takeText (maxChars - 20).toNat (reviewBody (requestShortCode uuid) event conclusion)
        ++ "\n...(已截断)" := by
  have hslice : sliceText (maxChars - 20) (reviewBody (requestShortCode uuid) event conclusion) =
      takeText (maxChars - 20).toNat (reviewBody (requestShortCode uuid) event conclusion) :=
    if_pos (by omega)
  exact (buildReviewMessage_cut h hfits).trans (congrArg (· ++ _) hslice)

theorem parseReplyContent_fst (content : String) :
    (parseReplyContent content).1 = extractShortCode content :=
  rfl

theorem read_fitting (h : IsUuid uuid)
    (hfits : ((reviewText event conclusion).length : ℤ) + 30 ≤ maxChars) :
    (parseReplyContent (buildReviewMessage uuid event conclusion maxChars)).1 =
      (extractShortCode (reviewText event conclusion)).or (some (requestShortCode uuid)) := by
  rw [parseReplyContent_fst, buildReviewMessage_fitting h hfits]
  exact extractShortCode_reviewBody h

theorem read_cut (h : IsUuid uuid)
    (hfits : ¬((reviewText event conclusion).length : ℤ) + 30 ≤ maxChars) (hcut : 20 ≤ maxChars) :
    (parseReplyContent (buildReviewMessage uuid event conclusion maxChars)).1 =
      extractShortCode (takeText (maxChars - 20).toNat (reviewText event conclusion)) := by
  rw [parseReplyContent_fst, buildReviewMessage_take h hfits hcut]
  exact extractShortCode_cut (by omega)

theorem message_round_trip_iff (h : IsUuid uuid) :
    ((buildReviewMessage uuid event conclusion maxChars).length : ℤ) ≤ maxChars ∧
      (parseReplyContent (buildReviewMessage uuid event conclusion maxChars)).1 =
        some (requestShortCode uuid) ↔ TagSurvives maxChars uuid event conclusion := by
  have hlen : (reviewBody (requestShortCode uuid) event conclusion).length =
      (reviewText event conclusion).length + 30 := length_reviewBody h.length_shortCode
  by_cases hfits : ((reviewText event conclusion).length : ℤ) + 30 ≤ maxChars
  · rw [read_fitting h hfits, buildReviewMessage_fitting h hfits, hlen, TagSurvives]
    simp only [if_pos hfits]
    refine (and_iff_right (by omega)).trans ?_
    cases extractShortCode (reviewText event conclusion) with
    | none => simp
    | some code => simp
  · simp only [TagSurvives, if_neg hfits]
    by_cases hshort : 20 ≤ maxChars
    · rw [read_cut h hfits hshort]
      refine and_congr_left fun _ => ⟨fun _ => hshort, fun _ => ?_⟩
      rw [buildReviewMessage_take h hfits hshort, length_cut, length_takeText]
      have hmin := min_le_left (maxChars - 20).toNat
        (reviewBody (requestShortCode uuid) event conclusion).length
      omega
    · -- a negative end cuts too little
      have hslice : sliceText (maxChars - 20) (reviewBody (requestShortCode uuid) event conclusion) =
          takeText ((reviewBody (requestShortCode uuid) event conclusion).length -
            (maxChars - 20).natAbs)
            (reviewBody (requestShortCode uuid) event conclusion) := if_neg (by omega)
      rw [buildReviewMessage_cut h hfits, hslice, length_cut, length_takeText, hlen]
      exact iff_of_false (fun hle => by omega) fun hle => hshort hle.1

end

/-- Every other sent request whose id begins with the code was sent earlier. -/
def NewestWithCode (db : Db) (rid : ℕ) (code : String) (sentAt : Option Time) : Prop :=
  ∀ (j : ℕ) (r : HumanReviewRequest), db.requests[j]? = some r → j ≠ rid → r.status = .sent →
    code.toList.isPrefixOf r.uuid.toList = true →
    Rows.nullHigh r.sentAt < Rows.nullHigh sentAt

section

variable {rt : Runtime} {config : HumanReviewConfig} {tie : ℕ → ℕ} {db : Db} {code : String}
  {rid : ℕ} {req : HumanReviewRequest} {w w' : World}

theorem newest_isLE_iff {x y : ℕ × HumanReviewRequest} :
    ((compareTimes y.2.sentAt x.2.sentAt).then (compare (tie x.1) (tie y.1))).isLE = true ↔
      Rows.descending (fun r : ℕ × HumanReviewRequest => Rows.nullHigh r.2.sentAt)
        (fun r => tie r.1) x y := by
  rw [Ordering.isLE_then_iff_or, compareTimes_eq, compare_lt_iff_lt, compare_eq_iff_eq,
    Nat.isLE_compare, Rows.descending, eq_comm]

theorem findRequestByShortCode_eq : findRequestByShortCode tie db code =
    (Rows.orderLimit (Rows.descending (fun r : ℕ × HumanReviewRequest => Rows.nullHigh r.2.sentAt)
      fun r => tie r.1) 1 (db.requests.select fun _ r =>
        r.status == .sent && code.toList.isPrefixOf r.uuid.toList)).head? := by
  unfold findRequestByShortCode
  congr 2
  funext x y
  exact propext newest_isLE_iff

/-- Whatever order the database gives to equal rows, the newest request with the code is found. -/
theorem finds_iff (hrow : db.requests[rid]? = some req) (hsent : req.status = .sent)
    (hcode : code.toList.isPrefixOf req.uuid.toList = true) :
    (∀ tie, findRequestByShortCode tie db code = some (rid, req)) ↔
      NewestWithCode db rid code req.sentAt := by
  constructor
  · intro hfind j r hr hj hrsent hrcode
    by_contra hlate
    have hhead := hfind fun i => if i = rid then 1 else 0
    rw [findRequestByShortCode_eq] at hhead
    have hmem : (j, r) ∈ db.requests.select fun _ r =>
        r.status == .sent && code.toList.isPrefixOf r.uuid.toList :=
      Rows.mem_select.mpr ⟨hr, by rw [hrsent, hrcode]; rfl⟩
    rcases (Rows.head_orderLimit hhead).2 _ hmem with hlt | ⟨-, htie⟩
    · exact hlate hlt
    · dsimp only at htie
      rw [if_pos rfl, if_neg hj] at htie
      exact absurd htie (by decide)
  · intro hnewest tie
    rw [findRequestByShortCode_eq]
    have hmem : (rid, req) ∈ db.requests.select fun _ r =>
        r.status == .sent && code.toList.isPrefixOf r.uuid.toList :=
      Rows.mem_select.mpr ⟨hrow, by rw [hsent, hcode]; rfl⟩
    cases hhead : (Rows.orderLimit (Rows.descending (fun r : ℕ × HumanReviewRequest =>
        Rows.nullHigh r.2.sentAt) fun r => tie r.1) 1 (db.requests.select fun _ r =>
          r.status == .sent && code.toList.isPrefixOf r.uuid.toList)).head? with
    | none => exact absurd hhead (Rows.head_orderLimit_ne_none hmem)
    | some found =>
      obtain ⟨j, r⟩ := found
      obtain ⟨hr, hfirst⟩ := Rows.head_orderLimit hhead
      obtain ⟨hr, hp⟩ := Rows.mem_select.mp hr
      by_cases hj : j = rid
      · subst hj
        rw [Option.some.inj (hr.symm.trans hrow)]
      · obtain ⟨hrsent, hrcode⟩ := Bool.and_eq_true_iff.mp hp
        have hlt := hnewest j r hr hj (beq_iff_eq.mp hrsent) hrcode
        exact absurd (hfirst _ hmem).le (not_le.mpr hlt)

/-- What a reply with a tag does: it is for the request that is found, and writes no other one. -/
theorem handleReply_routed {env : ReplyEnv} {rawContent : String}
    {externalMsgId responder : Option String} {r : HandleReplyResult}
    (h : exec (handleReply rt config env rawContent externalMsgId responder none) w = (.ok r, w'))
    (hcode : extractShortCode rawContent = some code) :
    findRequestByShortCode env.tie w.db code = none ∧ r.requestId = none ∧ w'.db = w.db ∨
      ∃ rid req, findRequestByShortCode env.tie w.db code = some (rid, req) ∧
        r.requestId = some rid ∧ (w'.db = w.db ∨ ∃ response t, response.requestId = rid ∧
          w'.db = recordReply config rid req response t w.db) := by
  have hparse : parseReplyContent rawContent = (some code, (parseReplyContent rawContent).2) := by
    rw [← hcode]
    rfl
  have h := exec_atomically_ok.mp h
  simp only [exec_fallible_bind_ok, exec_query_bind, findRepliedRequest, id_eq] at h
  obtain ⟨-, h⟩ := h
  rw [hparse] at h
  cases hfound : findRequestByShortCode env.tie w.db code with
  | none =>
    simp only [hfound, exec_pure, Prod.mk.injEq, Except.ok.injEq] at h
    obtain ⟨rfl, rfl⟩ := h
    exact .inl ⟨rfl, rfl, rfl⟩
  | some found =>
    obtain ⟨rid, req⟩ := found
    refine .inr ⟨rid, req, rfl, ?_⟩
    simp only [hfound, exec_fallible_bind_ok] at h
    obtain ⟨-, h⟩ := h
    split at h
    · simp at h
    · simp only [exec_pure, Prod.mk.injEq, Except.ok.injEq] at h
      obtain ⟨rfl, rfl⟩ := h
      exact ⟨rfl, .inl rfl⟩
    · simp only [exec_utcNow_bind] at h
      split at h
      · simp only [exec_fallible_bind_ok, exec_utcNow_bind, markReinvestigation,
          exec_setRedis_bind, exec_modify_bind, exec_pure, Prod.mk.injEq, Except.ok.injEq] at h
        obtain ⟨-, -, rfl, rfl⟩ := h
        exact ⟨rfl, .inr ⟨_, _, rfl, rfl⟩⟩
      · simp only [exec_fallible_bind_ok, exec_modify_bind, exec_pure, Prod.mk.injEq,
          Except.ok.injEq] at h
        obtain ⟨-, rfl, rfl⟩ := h
        exact ⟨rfl, .inr ⟨_, _, rfl, rfl⟩⟩

theorem handleReply_returns {answeredAt : Time} {rawContent : String} :
    ∃ r w', exec (handleReply rt config { answeredAt := answeredAt, tie := tie } rawContent none
      none none) w = (.ok r, w') := by
  simp only [handleReply, Session.transaction, exec_atomically_ok, fallible, exec_query_bind,
    exec_bind_pure, responseExists, truthyText, Option.filter_none]
  split
  · exact ⟨_, _, rfl⟩
  · simp only [Option.isNone_none, if_true]
    split
    · exact ⟨_, _, rfl⟩
    · exact ⟨_, _, rfl⟩

/-- Replies with a code are attached to one request: they are for it and write no other one. -/
def AttachesTo (rt : Runtime) (config : HumanReviewConfig) (w : World) (rid : ℕ) (code : String) :
    Prop :=
  ∀ env rawContent externalMsgId responder r w', extractShortCode rawContent = some code →
    exec (handleReply rt config env rawContent externalMsgId responder none) w = (.ok r, w') →
    r.requestId = some rid ∧
      (∃ responses, w'.db.responses = w.db.responses ++ responses ∧
        ∀ response ∈ responses, response.requestId = rid) ∧
      ∀ j, j ≠ rid → w'.db.requests[j]? = w.db.requests[j]?

theorem attachesTo_iff (hrow : w.db.requests[rid]? = some req) (hsent : req.status = .sent)
    (hcode : code.toList.isPrefixOf req.uuid.toList = true)
    (hread : ∃ rawContent, extractShortCode rawContent = some code) :
    AttachesTo rt config w rid code ↔ NewestWithCode w.db rid code req.sentAt := by
  rw [← finds_iff hrow hsent hcode]
  constructor
  · intro hattach tie
    obtain ⟨rawContent, hraw⟩ := hread
    obtain ⟨r, w', hrun⟩ :=
      @handleReply_returns rt config tie w 0 rawContent
    have hid := (hattach _ _ _ _ _ _ hraw hrun).1
    rcases handleReply_routed hrun hraw with ⟨-, hnone, -⟩ | ⟨j, found, hfound, hj, -⟩
    · rw [hnone] at hid
      cases hid
    · rw [hj] at hid
      obtain rfl := Option.some.inj hid
      have hmem := Rows.mem_of_mem_orderLimit (List.mem_of_head? hfound)
      rw [hfound, Option.some.inj ((Rows.mem_select.mp hmem).1.symm.trans hrow)]
  · intro hfinds env rawContent externalMsgId responder r w' hraw hrun
    rcases handleReply_routed hrun hraw with ⟨hnone, -, -⟩ | ⟨j, found, hfound, hj, hdb⟩
    · rw [hfinds env.tie] at hnone
      cases hnone
    · rw [hfinds env.tie] at hfound
      obtain ⟨rfl, rfl⟩ := Prod.mk.inj (Option.some.inj hfound)
      refine ⟨hj, ?_⟩
      rcases hdb with hdb | ⟨response, t, hresponse, hdb⟩
      · rw [hdb]
        exact ⟨⟨[], (List.append_nil _).symm, nofun⟩, fun _ _ => rfl⟩
      · rw [hdb]
        refine ⟨⟨[response], rfl, fun x hx => List.mem_singleton.mp hx ▸ hresponse⟩, ?_⟩
        intro i hi
        exact List.getElem?_modify_ne _ _ (Ne.symm hi)

theorem extractShortCode_tag {uuid : String} (h : IsUuid uuid) :
    extractShortCode ("#EVT-" ++ requestShortCode uuid) = some (requestShortCode uuid) := by
  have htag : "#EVT-".toList = tagHead := rfl
  rw [extractShortCode_eq, String.toList_append, htag]
  rw [← List.append_nil (tagHead ++ _), firstCode_tag h.length_shortCode h.all_hex]
  exact congrArg some h.lower

end

def sampleUuid : String := "a1b2c3d4e5f67890abcdef1234567890"

theorem sampleUuid_isUuid : IsUuid sampleUuid := by
  have hdigits : sampleUuid.toList.all (fun c => isHexDigit c && c.toLower == c) = true := by
    decide +kernel
  refine ⟨by decide +kernel, fun c hc => ?_⟩
  simpa using List.all_eq_true.mp hdigits c hc

def askedEvent (title : String) : Event where
  eventKey := "k"
  title := some title
  createdAt := 0

def askedConclusion (humanQuery : String) : InvestigationConclusion where
  investigationId := 0
  verdict := .insufficientInformation
  confidence := 2 / 5
  riskLevel := .medium
  reasoning := "unclear"
  humanQuery := some humanQuery

/-- One request waits for a reply. -/
def askedWorld : World where
  db := { requests := [{
    uuid := sampleUuid
    investigationId := 0
    eventId := 0
    channel := .wecom
    question := "ok?"
    sentAt := some 0 }] }

end Minsight

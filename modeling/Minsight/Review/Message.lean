import Minsight.Foundation.Decimal
import Minsight.Model.World

/-! # Review messages and replies -/

namespace Minsight

/-- `request_short_code` -/
def requestShortCode (uuid : String) : String :=
  String.ofList ((uuid.toList.take 8).map Char.toLower)

/-- `HUMAN_VERDICTS` -/
def InvestigationVerdict.asksHuman : InvestigationVerdict → Bool
  | .insufficientInformation | .needsHumanReview => true
  | .attackConfirmed | .likelyFalsePositive => false

def verdictLabel : InvestigationVerdict → String
  | .insufficientInformation => "信息不足"
  | .needsHumanReview => "需人工复核"
  | v => v.value

def reviewBody (short : String) (event : Event) (conclusion : InvestigationConclusion) : String :=
  let missing := joinText "\n" ((conclusion.missingInfo.take 5).map ("- " ++ ·))
  "## 安全告警协查请求\n\n**事件** " ++ orText event.title (event.primaryCategory.getD "None")
    ++ " | 风险 " ++ fixed0 event.riskScore ++ " | " ++ orText event.primaryCategory "-"
    ++ "\n**主机** " ++ orText event.aggregateHostName "-"
    ++ " | **用户** " ++ orText event.aggregateUserName "-"
    ++ "\n**Agent 结论** " ++ verdictLabel conclusion.verdict
    ++ "（置信度 " ++ fixed2 conclusion.confidence ++ "）\n\n**已知推理**\n"
    ++ takeText 500 conclusion.reasoning
    ++ "\n\n**缺失信息**\n" ++ (if missing = "" then "- （无）" else missing)
    ++ "\n\n**请协助确认**\n" ++ orText conclusion.humanQuery "请补充现场情况。"
    ++ "\n\n---\n请回复并保留标签：`#EVT-" ++ short ++ "`\n协查单号：" ++ short ++ "\n"

/-- `build_review_message`: the markdown that is sent. -/
def buildReviewMessage (uuid : String) (event : Event) (conclusion : InvestigationConclusion)
    (maxChars : ℤ) : String :=
  let body := reviewBody (requestShortCode uuid) event conclusion
  if maxChars < body.length then sliceText (maxChars - 20) body ++ "\n...(已截断)" else body

def isHexDigit (c : Char) : Bool :=
  ('0' ≤ c && c ≤ '9') || ('a' ≤ c && c ≤ 'f') || ('A' ≤ c && c ≤ 'F')

def tagAt? : List Char → Option (List Char × List Char)
  | '#' :: 'E' :: 'V' :: 'T' :: '-' :: rest =>
    if (rest.take 8).length = 8 && (rest.take 8).all isHexDigit then
      some (rest.take 8, rest.drop 8)
    else none
  | _ => none

/-- `extract_short_code`: the code of the first tag. -/
def extractShortCode (content : String) : Option String :=
  (content.toList.tails.findSome? tagAt?).map fun tag =>
    String.ofList (tag.1.map Char.toLower)

/-- The text without its tags; `fuel` bounds the number of characters looked at. -/
def removeTags : ℕ → List Char → List Char
  | 0, cs => cs
  | _ + 1, [] => []
  | fuel + 1, c :: cs =>
    match tagAt? (c :: cs) with
    | some (_, rest) => removeTags fuel rest
    | none => c :: removeTags fuel cs

/-- `parse_reply_content`: the short code and the text without tags. -/
def parseReplyContent (rawContent : String) : Option String × String :=
  let cleaned := stripChars (removeTags rawContent.length rawContent.toList)
  (extractShortCode rawContent,
    if cleaned.isEmpty then strip rawContent else String.ofList cleaned)

example : parseReplyContent "ok #EVT-0A1b2C3d done" = (some "0a1b2c3d", "ok  done") := by
  decide +kernel

end Minsight

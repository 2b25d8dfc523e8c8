import Mathlib.Data.String.Basic
import Minsight.Agent.Loop
import Minsight.Foundation.SortedSet

/-! # Rule-based investigation supervisor -/

namespace Minsight

structure SupervisorConfig where
  enabled : Bool := true
  blockOnFail : Bool := false
  maxOffSopSkillCalls : ℤ := 3

inductive AuditIssue
  | noSuccessfulSkillCalls
  | missingRecommendedSkills (skills : List String)
  | pathDrift
  | ungroundedEvidenceRef (ref : String)
  | possibleHallucinatedIp
  deriving DecidableEq, Repr

def AuditIssue.isBlocking : AuditIssue → Bool
  | .noSuccessfulSkillCalls => false
  | _ => true

/-- The text of an issue; of a reference it shows the first 40 characters. -/
def AuditIssue.text : AuditIssue → String
  | .noSuccessfulSkillCalls => "no_successful_skill_calls"
  | .missingRecommendedSkills skills => "missing_recommended_skills:" ++ joinText "," skills
  | .pathDrift => "path_drift:too_many_off_sop_skills"
  | .ungroundedEvidenceRef ref => "ungrounded_evidence_ref:" ++ takeText 40 ref
  | .possibleHallucinatedIp => "possible_hallucinated_ip"

structure SupervisorResult where
  passed : Bool
  issues : List AuditIssue := []
  findings : List (String × Json) := []

/-- `to_audit_record` -/
def SupervisorResult.toAuditRecord (result : SupervisorResult) : Json :=
  .obj (("passed", .bool result.passed) :: result.findings)

/-- `needle in text` -/
def containsText (needle text : String) : Bool :=
  text.toList.tails.any fun rest => needle.toList.isPrefixOf rest

/-- `InvestigationSupervisor.audit` -/
def audit (rt : Runtime) (conclusion : ConclusionPayload) (toolCalls : List InvestigationToolCall)
    (config : SupervisorConfig) (recommendedSkills : List String) : SupervisorResult :=
  if !config.enabled then { passed := true }
  else
    let successful := (toolCalls.filter (·.success)).map (·.skillName)
    let missing := sortedSet (recommendedSkills.filter fun s => !successful.contains s)
    let sopSkills := submitConclusionName :: recommendedSkills
    let offSop := toolCalls.filter fun tc =>
      tc.skillName != "" && !sopSkills.contains tc.skillName
    let summaries := joinText " " ((toolCalls.filterMap (·.outputSummary)).filter (· ≠ ""))
    let ungrounded := conclusion.evidenceRefs.dedup.filter fun ref =>
      ref != "" && !containsText ref summaries && !toolCalls.any fun tc =>
        containsText ref tc.skillName
    let toolIps := rt.findIpv4 summaries
    let foreignIps := (rt.findIpv4 conclusion.reasoning).filter fun ip => !toolIps.contains ip
    let hallucinated := if conclusion.verdict = .attackConfirmed then sortedSet foreignIps else []
    let issues :=
      (if successful = [] then [AuditIssue.noSuccessfulSkillCalls] else [])
      ++ (if missing = [] then [] else [.missingRecommendedSkills missing])
      ++ (if config.maxOffSopSkillCalls < offSop.length then [.pathDrift] else [])
      ++ ungrounded.map .ungroundedEvidenceRef
      ++ (if hallucinated = [] then [] else [.possibleHallucinatedIp])
    let texts (items : List String) : Json := .arr (items.map .str)
    let findings :=
      (if missing = [] then [] else [("missing_recommended_skills", texts missing)])
      ++ (if config.maxOffSopSkillCalls < offSop.length
        then [("off_sop_skill_calls", texts ((offSop.map (·.skillName)).take 10))] else [])
      ++ (if hallucinated = [] then [] else [("hallucinated_ips", texts (hallucinated.take 5))])
      ++ [("issues", texts (issues.map AuditIssue.text)),
        ("successful_skills", texts (sortedSet successful))]
    { passed := !issues.any AuditIssue.isBlocking, issues, findings }

end Minsight

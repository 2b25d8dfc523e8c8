import Minsight.Foundation.Decimal
import Minsight.Model.World

/-! # Conclusions and evidence closure -/

namespace Minsight

structure SuggestedAssets where
  judgmentCase : Option Json := none
  whitelistCandidate : Option Json := none
  profileUpdate : Option Json := none

/-- `model_dump()` -/
def SuggestedAssets.dump (a : SuggestedAssets) : Json :=
  .obj [("judgment_case", a.judgmentCase.getD .null),
    ("whitelist_candidate", a.whitelistCandidate.getD .null),
    ("profile_update", a.profileUpdate.getD .null)]

structure ConclusionPayload extends ConclusionFields where
  suggestedAssets : SuggestedAssets := {}

/-- A field of type `dict | None`; `none` when the value is neither. -/
def optionalDict (value : Option Json) : Option (Option Json) :=
  match value with
  | none | some .null => some none
  | some (.obj fields) => some (some (.obj fields))
  | some _ => none

/-- `parse_conclusion`; `none` when the payload does not validate. -/
def parseConclusion (rt : Runtime) (params : Json) : Option ConclusionPayload := do
  let suggested := match params.get? "suggested_assets" with
    | some (.obj fields) => Json.obj fields
    | _ => .obj []
  let judgmentCase ← optionalDict (suggested.get? "judgment_case")
  let whitelistCandidate ← optionalDict (suggested.get? "whitelist_candidate")
  let profileUpdate ← optionalDict (suggested.get? "profile_update")
  let fields ← rt.validateFields params
  if fields.confidence < 0 ∨ 1 < fields.confidence then none
  else if fields.verdict = .insufficientInformation ∧ (truthyText fields.humanQuery).isNone then
    none
  else
    some { toConclusionFields := fields
           suggestedAssets := { judgmentCase, whitelistCandidate, profileUpdate } }

def degradedConclusion (reason : String) : ConclusionPayload where
  verdict := .needsHumanReview
  confidence := 0
  riskLevel := .medium
  reasoning := reason
  recommendedAction := some "建议人工复核该事件"
  missingInfo := [reason]
  humanQuery := some ("自动调查未完成：" ++ reason ++ "，请协助确认。")

@[simp] theorem degradedConclusion_verdict (reason : String) :
    (degradedConclusion reason).verdict = .needsHumanReview := rfl

structure ClosureConfig where
  enabled : Bool := true
  minEvidenceClosureScore : ℚ := 6 / 10
  minRefutationCoverageForAttack : ℚ := 1 / 2
  maxClosureRetries : ℤ := 2
  requireRefutationAttempt : Bool := true
  minRefutingHintsChecked : ℤ := 1

structure ClosureResult where
  passed : Bool
  evidenceClosureScore : ℚ
  refutationCoverage : ℚ
  checks : Json := .obj []
  missingSkills : List String := []
  rejectionReasons : List String := []

/-- `rejection_message()` -/
def ClosureResult.rejectionMessage (r : ClosureResult) : String :=
  if r.passed then ""
  else
    joinText "\n" (["submit_conclusion 被拒绝：证据闭合度不足，请补充调查后再提交。"]
      ++ r.rejectionReasons.map ("- " ++ ·)
      ++ if r.missingSkills.isEmpty then []
        else ["缺少 Skill 调用: " ++ joinText ", " r.missingSkills])

/-- `hypothesis_template or {}`, whose values are then looked up. -/
def templateFields : Option Json → Except Exn Json
  | none => .ok (.obj [])
  | some template =>
    if !template.truthy then .ok (.obj [])
    else if template.isObj then .ok template
    else .error (.attributeError "get")

/-- `list(template.get(key) or [])` -/
def templateList (template : Json) (key : String) : Except Exn (List Json) :=
  match template.get? key with
  | none => .ok []
  | some (.arr items) => .ok items
  | some (.str s) => .ok (s.toList.map fun c => .str (String.ofList [c]))
  | some (.obj fields) => .ok (fields.map fun field => .str field.1)
  | some value => if value.truthy then .error .typeError else .ok []

/-- `value in skills_called`, which raises on a value that has no hash. -/
def isCalled (skillsCalled : List String) : Json → Except Exn Bool
  | .str s => .ok (skillsCalled.contains s)
  | .arr _ => .error .typeError
  | .obj _ => .error .typeError
  | _ => .ok false

def missingRequired (skillsCalled : List String) : List Json → Except Exn (List Json)
  | [] => .ok []
  | s :: required => do
    let called ← isCalled skillsCalled s
    let missing ← missingRequired skillsCalled required
    pure (if called then missing else s :: missing)

def hintsCalled (skillsCalled : List String) : List Json → Except Exn ℕ
  | [] => .ok 0
  | .obj fields :: hints => do
    let called ← isCalled skillsCalled ((fields.lookup "skill").getD .null)
    let n ← hintsCalled skillsCalled hints
    pure (if called then n + 1 else n)
  | _ :: _ => .error (.attributeError "get")

/-- The names `', '.join` puts together; it raises on a value that is no text. -/
def joinedNames : List Json → Except Exn (List String)
  | [] => .ok []
  | .str s :: names => do
    let rest ← joinedNames names
    pure (s :: rest)
  | _ :: _ => .error .typeError

def coverage (part whole : ℕ) : ℚ := if whole = 0 then 1 else part / whole

/-- `ClosureEvaluator.evaluate` -/
def evaluateClosure (conclusion : ConclusionPayload) (skillsCalled : List String)
    (hypothesisTemplate : Option Json) (config : ClosureConfig) : Except Exn ClosureResult := do
  if !config.enabled then
    pure { passed := true, evidenceClosureScore := 1, refutationCoverage := 1 }
  else if conclusion.verdict = .insufficientInformation ∨ conclusion.verdict = .needsHumanReview
  then
    pure { passed := true, evidenceClosureScore := 1, refutationCoverage := 1
           checks := .obj [("exempt_verdict", .str conclusion.verdict.value)] }
  else
    let template ← templateFields hypothesisTemplate
    let required ← templateList template "required_skills_before_conclude"
    let supporting ← templateList template "supporting_hints"
    let refuting ← templateList template "refuting_hints"
    let missing ← missingRequired skillsCalled required
    let requiredCoverage :=
      if required.isEmpty then (1 : ℚ) else 1 - missing.length / required.length
    let supportingMatched ← hintsCalled skillsCalled supporting
    let supportingScore := coverage supportingMatched supporting.length
    let refutingAttempted ← hintsCalled skillsCalled refuting
    let refutationCoverage := coverage refutingAttempted refuting.length
    let score :=
      (4 / 10) * requiredCoverage + (3 / 10) * supportingScore + (3 / 10) * refutationCoverage
    let isAttack : Bool := conclusion.verdict = .attackConfirmed
    let lowScore : Bool := score < config.minEvidenceClosureScore
    let noRefutation : Bool := isAttack && config.requireRefutationAttempt && !refuting.isEmpty
      && decide ((refutingAttempted : ℤ) < config.minRefutingHintsChecked)
    let lowRefutation : Bool := isAttack
      && decide (refutationCoverage < config.minRefutationCoverageForAttack) && !refuting.isEmpty
    let missingSkills ← joinedNames missing
    pure {
      passed := !(lowScore || !missing.isEmpty || noRefutation || lowRefutation)
      evidenceClosureScore := score
      refutationCoverage := refutationCoverage
      checks := .obj [("required_skills_coverage", .float requiredCoverage),
        ("supporting_hints_matched", .int supportingMatched),
        ("refuting_hints_attempted", .int refutingAttempted),
        ("missing_skills", .arr missing)]
      missingSkills := missingSkills
      rejectionReasons :=
        (if lowScore then ["证据闭合度 " ++ fixed2 score ++ " 低于门槛 "
          ++ fixed2 config.minEvidenceClosureScore] else [])
        ++ (if missing.isEmpty then [] else ["未调用必填 Skill: " ++ joinText ", " missingSkills])
        ++ (if noRefutation then
          ["确认攻击前需至少尝试一条反证调查（如 query_asset / query_entity_graph）"] else [])
        ++ (if lowRefutation then ["反证覆盖率 " ++ fixed2 refutationCoverage
          ++ " 低于攻击确认门槛 " ++ fixed2 config.minRefutationCoverageForAttack] else []) }

theorem called_of_missingRequired {skillsCalled : List String} {required : List Json}
    (h : missingRequired skillsCalled required = .ok []) :
    ∀ s ∈ required, ∃ name, s = .str name ∧ name ∈ skillsCalled := by
  induction required with
  | nil => nofun
  | cons s required ih =>
    obtain ⟨called, hs, h⟩ := Tx.except_bind_ok.mp h
    obtain ⟨missing, hrest, h⟩ := Tx.except_bind_ok.mp h
    cases called with
    | false => cases h
    | true =>
      obtain rfl : missing = [] := Except.ok.inj h
      intro x hx
      rcases List.mem_cons.mp hx with rfl | hx
      · cases x with
        | str name => exact ⟨name, rfl, by simpa [isCalled] using hs⟩
        | _ => cases hs
      · exact ih hrest x hx

theorem required_of_passed {conclusion : ConclusionPayload} {skillsCalled : List String}
    {template : Option Json} {config : ClosureConfig} {closure : ClosureResult}
    (h : evaluateClosure conclusion skillsCalled template config = .ok closure)
    (enabled : config.enabled = true)
    (verdict : conclusion.verdict = .attackConfirmed ∨ conclusion.verdict = .likelyFalsePositive)
    (passed : closure.passed = true) :
    ∃ fields required, templateFields template = .ok fields ∧
      templateList fields "required_skills_before_conclude" = .ok required ∧
      ∀ s ∈ required, ∃ name, s = .str name ∧ name ∈ skillsCalled := by
  have hverdict : ¬ (conclusion.verdict = .insufficientInformation ∨
      conclusion.verdict = .needsHumanReview) := by
    rcases verdict with hv | hv <;> simp [hv]
  rw [evaluateClosure, enabled, if_neg (by decide), if_neg hverdict] at h
  obtain ⟨fields, hfields, h⟩ := Tx.except_bind_ok.mp h
  obtain ⟨required, hrequired, h⟩ := Tx.except_bind_ok.mp h
  obtain ⟨supporting, -, h⟩ := Tx.except_bind_ok.mp h
  obtain ⟨refuting, -, h⟩ := Tx.except_bind_ok.mp h
  obtain ⟨missing, hmissing, h⟩ := Tx.except_bind_ok.mp h
  obtain ⟨supportingMatched, -, h⟩ := Tx.except_bind_ok.mp h
  obtain ⟨refutingAttempted, -, h⟩ := Tx.except_bind_ok.mp h
  obtain ⟨missingSkills, -, h⟩ := Tx.except_bind_ok.mp h
  have hempty : missing = [] := by
    rw [← Except.ok.inj h] at passed
    simp only [Bool.not_eq_true', Bool.or_eq_false_iff, Bool.not_eq_false'] at passed
    exact List.isEmpty_iff.mp passed.1.1.2
  exact ⟨fields, required, hfields, hrequired, called_of_missingRequired (hempty ▸ hmissing)⟩

end Minsight

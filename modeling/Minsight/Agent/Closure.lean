import Minsight.Agent.Conclusion
import Mathlib.Algebra.Order.Field.Rat
import Mathlib.Data.Rat.Cast.Order
import Mathlib.Data.Set.List
import Mathlib.Tactic.Linarith
import Mathlib.Tactic.Positivity

/-! # Evidence closure as an order

The scores read from the lists of a template are monotone in the set of called
skills, and every condition of the gate is a lower bound on such a score, so
calling more skills never turns a passing conclusion into a rejected one.
-/

namespace Minsight

theorem coverage_nonneg (part whole : ℕ) : 0 ≤ coverage part whole := by
  unfold coverage
  split
  · exact zero_le_one
  · positivity

theorem coverage_le_one {part whole : ℕ} (h : part ≤ whole) : coverage part whole ≤ 1 := by
  unfold coverage
  split
  · exact le_rfl
  · exact div_le_one_of_le₀ (by exact_mod_cast h) (Nat.cast_nonneg _)

theorem coverage_mono {part more : ℕ} (h : part ≤ more) (whole : ℕ) :
    coverage part whole ≤ coverage more whole := by
  unfold coverage
  split
  · exact le_rfl
  · exact div_le_div_of_nonneg_right (by exact_mod_cast h) (Nat.cast_nonneg _)

def hintSkill : Json → Json
  | .obj fields => (fields.lookup "skill").getD .null
  | _ => .null

def covers (called : List String) : Json → Bool
  | .str s => called.contains s
  | _ => false

theorem covers_mono {called more : List String} (h : called ⊆ more) {s : Json}
    (hs : covers called s = true) : covers more s = true := by
  cases s with
  | str s =>
    simp only [covers, List.contains_iff_mem] at hs ⊢
    exact h hs
  | _ => cases hs

def uncalled (called : List String) (required : List Json) : List Json :=
  required.filter fun s => !covers called s

theorem mem_uncalled {called : List String} {required : List Json} {s : Json} :
    s ∈ uncalled called required ↔ s ∈ required ∧ covers called s = false := by
  simp [uncalled]

theorem uncalled_sublist {called more : List String} (h : called ⊆ more)
    (required : List Json) :
    (uncalled more required).Sublist (uncalled called required) := by
  apply List.monotone_filter_right
  intro s hs
  rw [Bool.not_eq_true'] at hs ⊢
  exact Bool.eq_false_iff.mpr fun hc => Bool.eq_false_iff.mp hs (covers_mono h hc)

def attempted (called : List String) (hints : List Json) : ℕ :=
  hints.countP fun hint => covers called (hintSkill hint)

theorem attempted_le_length (called : List String) (hints : List Json) :
    attempted called hints ≤ hints.length :=
  List.countP_le_length

theorem attempted_mono {called more : List String} (h : called ⊆ more) (hints : List Json) :
    attempted called hints ≤ attempted more hints :=
  List.countP_mono_left fun _ _ hc => covers_mono h hc

structure ClosureLists where
  required : List Json
  supporting : List Json
  refuting : List Json

namespace ClosureLists

variable (l : ClosureLists)

def requiredCoverage (called : List String) : ℚ :=
  if l.required.isEmpty then 1
  else 1 - (uncalled called l.required).length / l.required.length

def supportingCoverage (called : List String) : ℚ :=
  coverage (attempted called l.supporting) l.supporting.length

def refutationCoverage (called : List String) : ℚ :=
  coverage (attempted called l.refuting) l.refuting.length

def score (called : List String) : ℚ :=
  (4 / 10) * l.requiredCoverage called + (3 / 10) * l.supportingCoverage called
    + (3 / 10) * l.refutationCoverage called

theorem requiredCoverage_nonneg (called : List String) : 0 ≤ l.requiredCoverage called := by
  unfold requiredCoverage
  split
  · exact zero_le_one
  · have hle : ((uncalled called l.required).length : ℚ) ≤ l.required.length := by
      exact_mod_cast List.length_filter_le ..
    exact sub_nonneg_of_le (div_le_one_of_le₀ hle (Nat.cast_nonneg _))

theorem requiredCoverage_le_one (called : List String) : l.requiredCoverage called ≤ 1 := by
  unfold requiredCoverage
  split
  · exact le_rfl
  · exact sub_le_self 1 (by positivity)

variable {called more : List String}

theorem requiredCoverage_mono (h : called ⊆ more) :
    l.requiredCoverage called ≤ l.requiredCoverage more := by
  unfold requiredCoverage
  split
  · exact le_rfl
  · have hle : ((uncalled more l.required).length : ℚ) ≤ (uncalled called l.required).length := by
      exact_mod_cast (uncalled_sublist h l.required).length_le
    exact sub_le_sub_left (div_le_div_of_nonneg_right hle (Nat.cast_nonneg _)) 1

theorem refutationCoverage_mono (h : called ⊆ more) :
    l.refutationCoverage called ≤ l.refutationCoverage more :=
  coverage_mono (attempted_mono h l.refuting) _

theorem score_nonneg (called : List String) : 0 ≤ l.score called := by
  have hr := l.requiredCoverage_nonneg called
  have hs : 0 ≤ l.supportingCoverage called := coverage_nonneg ..
  have hf : 0 ≤ l.refutationCoverage called := coverage_nonneg ..
  unfold score
  positivity

theorem score_le_one (called : List String) : l.score called ≤ 1 := by
  have hr := l.requiredCoverage_le_one called
  have hs : l.supportingCoverage called ≤ 1 := coverage_le_one (attempted_le_length ..)
  have hf : l.refutationCoverage called ≤ 1 := coverage_le_one (attempted_le_length ..)
  unfold score
  linarith

theorem score_mono (h : called ⊆ more) : l.score called ≤ l.score more := by
  have hr := l.requiredCoverage_mono h
  have hs : l.supportingCoverage called ≤ l.supportingCoverage more :=
    coverage_mono (attempted_mono h l.supporting) _
  have hf := l.refutationCoverage_mono h
  unfold score
  linarith

end ClosureLists

structure ClosureLists.Accepts (l : ClosureLists) (verdict : InvestigationVerdict)
    (config : ClosureConfig) (called : List String) : Prop where
  score : config.minEvidenceClosureScore ≤ l.score called
  required : uncalled called l.required = []
  attempt : verdict = .attackConfirmed → config.requireRefutationAttempt = true →
    l.refuting ≠ [] → config.minRefutingHintsChecked ≤ attempted called l.refuting
  refutation : verdict = .attackConfirmed → l.refuting ≠ [] →
    config.minRefutationCoverageForAttack ≤ l.refutationCoverage called

theorem ClosureLists.Accepts.mono {l : ClosureLists} {verdict : InvestigationVerdict}
    {config : ClosureConfig} {called more : List String} (h : called ⊆ more)
    (accepts : l.Accepts verdict config called) : l.Accepts verdict config more where
  score := accepts.score.trans (l.score_mono h)
  required := by
    have hsub := uncalled_sublist h l.required
    rw [accepts.required] at hsub
    exact List.sublist_nil.mp hsub
  attempt hv hr hne := by
    have hle := attempted_mono h l.refuting
    have hmin := accepts.attempt hv hr hne
    omega
  refutation hv hne := (accepts.refutation hv hne).trans (l.refutationCoverage_mono h)

theorem ClosureLists.accepts_iff {l : ClosureLists} {verdict : InvestigationVerdict}
    {config : ClosureConfig} {called : List String} :
    l.Accepts verdict config called ↔
      ¬ l.score called < config.minEvidenceClosureScore ∧ uncalled called l.required = [] ∧
      ¬ (verdict = .attackConfirmed ∧ config.requireRefutationAttempt = true ∧
        l.refuting ≠ [] ∧ (attempted called l.refuting : ℤ) < config.minRefutingHintsChecked) ∧
      ¬ (verdict = .attackConfirmed ∧
        l.refutationCoverage called < config.minRefutationCoverageForAttack ∧
        l.refuting ≠ []) := by
  constructor
  · intro h
    exact ⟨not_lt.mpr h.score, h.required,
      fun ⟨hv, hr, hne, hlt⟩ => absurd (h.attempt hv hr hne) (not_le.mpr hlt),
      fun ⟨hv, hlt, hne⟩ => absurd (h.refutation hv hne) (not_le.mpr hlt)⟩
  · rintro ⟨hscore, hrequired, hattempt, hrefutation⟩
    exact {
      score := not_lt.mp hscore
      required := hrequired
      attempt := fun hv hr hne => not_lt.mp fun hlt => hattempt ⟨hv, hr, hne, hlt⟩
      refutation := fun hv hne => not_lt.mp fun hlt => hrefutation ⟨hv, hlt, hne⟩ }

/-- `checks["required_skills_coverage"]`, where the evaluation reports it. -/
def ClosureResult.requiredCoverage (r : ClosureResult) : Option ℚ :=
  match r.checks.get? "required_skills_coverage" with
  | some (.float q) => some q
  | _ => none

def ExemptVerdict (verdict : InvestigationVerdict) : Prop :=
  verdict = .insufficientInformation ∨ verdict = .needsHumanReview

instance (verdict : InvestigationVerdict) : Decidable (ExemptVerdict verdict) :=
  inferInstanceAs (Decidable (_ ∨ _))

def closureLists (hypothesisTemplate : Option Json) : Except Exn ClosureLists := do
  let template ← templateFields hypothesisTemplate
  let required ← templateList template "required_skills_before_conclude"
  let supporting ← templateList template "supporting_hints"
  let refuting ← templateList template "refuting_hints"
  pure { required, supporting, refuting }

/-- `r` reports the scores and the gate of the called skills. -/
structure Assessed (l : ClosureLists) (verdict : InvestigationVerdict) (config : ClosureConfig)
    (called : List String) (r : ClosureResult) : Prop where
  score : r.evidenceClosureScore = l.score called
  refutation : r.refutationCoverage = l.refutationCoverage called
  required : r.requiredCoverage = some (l.requiredCoverage called)
  missing : r.checks.get? "missing_skills" = some (.arr (uncalled called l.required))
  names : r.missingSkills.map .str = uncalled called l.required
  passed : r.passed = true ↔ l.Accepts verdict config called
  reasons : r.rejectionReasons = [] ↔ r.passed = true

theorem isCalled_of_ok {called : List String} {s : Json} {b : Bool}
    (h : isCalled called s = .ok b) (more : List String) :
    isCalled more s = .ok (covers more s) := by
  cases s with
  | arr _ => cases h
  | obj _ => cases h
  | _ => rfl

/-- Whether the required skills can be looked up does not depend on the called set. -/
theorem missingRequired_of_ok {called : List String} {required missing : List Json}
    (h : missingRequired called required = .ok missing) (more : List String) :
    missingRequired more required = .ok (uncalled more required) := by
  induction required generalizing missing with
  | nil => rfl
  | cons s required ih =>
    obtain ⟨b, hs, h⟩ := Tx.except_bind_ok.mp h
    obtain ⟨rest, hrest, -⟩ := Tx.except_bind_ok.mp h
    rw [missingRequired, isCalled_of_ok hs more, ih hrest]
    cases hc : covers more s <;> simp [uncalled, hc, bind, Except.bind, pure, Except.pure]

theorem hintsCalled_of_ok {called : List String} {hints : List Json} {n : ℕ}
    (h : hintsCalled called hints = .ok n) (more : List String) :
    hintsCalled more hints = .ok (attempted more hints) := by
  induction hints generalizing n with
  | nil => rfl
  | cons hint hints ih =>
    cases hint with
    | obj fields =>
      obtain ⟨b, hs, h⟩ := Tx.except_bind_ok.mp h
      obtain ⟨rest, hrest, -⟩ := Tx.except_bind_ok.mp h
      rw [hintsCalled, isCalled_of_ok hs more, ih hrest]
      cases hc : covers more ((fields.lookup "skill").getD .null) <;>
        simp [attempted, hintSkill, hc, bind, Except.bind, pure, Except.pure]
    | _ => cases h

theorem joinedNames_eq_ok {names : List Json} {texts : List String} :
    joinedNames names = .ok texts ↔ texts.map Json.str = names := by
  induction names generalizing texts with
  | nil => simp [joinedNames, eq_comm]
  | cons name names ih =>
    cases name with
    | str s =>
      constructor
      · intro h
        obtain ⟨rest, hrest, h⟩ := Tx.except_bind_ok.mp h
        obtain rfl : s :: rest = texts := Except.ok.inj h
        rw [List.map_cons, ih.mp hrest]
      · intro h
        obtain ⟨t, rest, rfl, hs, hrest⟩ := List.map_eq_cons_iff.mp h
        obtain rfl := Json.str.inj hs
        rw [joinedNames, ih.mpr hrest]
        rfl
    | _ =>
      constructor
      · intro h
        cases h
      · intro h
        obtain ⟨t, rest, -, hs, -⟩ := List.map_eq_cons_iff.mp h
        cases hs

/-- A required value that is no text is missing whatever was called, so the names join
for every set as soon as they join for one. -/
theorem joinedNames_uncalled {called : List String} {required : List Json} {texts : List String}
    (h : joinedNames (uncalled called required) = .ok texts) (more : List String) :
    ∃ texts', joinedNames (uncalled more required) = .ok texts' := by
  have htext : ∀ s ∈ uncalled more required, ∃ name, Json.str name = s := by
    intro s hs
    cases hcov : covers called s with
    | true =>
      cases s with
      | str name => exact ⟨name, rfl⟩
      | _ => cases hcov
    | false =>
      have hmem : s ∈ uncalled called required :=
        mem_uncalled.mpr ⟨(mem_uncalled.mp hs).1, hcov⟩
      rw [← joinedNames_eq_ok.mp h] at hmem
      obtain ⟨name, -, hname⟩ := List.mem_map.mp hmem
      exact ⟨name, hname⟩
  have hrange : uncalled more required ∈ Set.range (List.map Json.str) := by
    rw [Set.range_list_map]
    exact htext
  obtain ⟨texts', htexts'⟩ := hrange
  exact ⟨texts', joinedNames_eq_ok.mpr htexts'⟩

theorem closureLists_eq_ok {template : Option Json} {l : ClosureLists} :
    closureLists template = .ok l ↔ ∃ fields, templateFields template = .ok fields ∧
      templateList fields "required_skills_before_conclude" = .ok l.required ∧
      templateList fields "supporting_hints" = .ok l.supporting ∧
      templateList fields "refuting_hints" = .ok l.refuting := by
  constructor
  · intro h
    obtain ⟨fields, hfields, h⟩ := Tx.except_bind_ok.mp h
    obtain ⟨required, hrequired, h⟩ := Tx.except_bind_ok.mp h
    obtain ⟨supporting, hsupporting, h⟩ := Tx.except_bind_ok.mp h
    obtain ⟨refuting, hrefuting, h⟩ := Tx.except_bind_ok.mp h
    obtain rfl := Except.ok.inj h
    exact ⟨fields, hfields, hrequired, hsupporting, hrefuting⟩
  · rintro ⟨fields, hfields, hrequired, hsupporting, hrefuting⟩
    simp [closureLists, hfields, hrequired, hsupporting, hrefuting, bind, Except.bind, pure,
      Except.pure]

variable {conclusion : ConclusionPayload} {template : Option Json} {config : ClosureConfig}
  {called : List String} {r : ClosureResult}

/-- Without checking, or for an exempt verdict, every evaluation passes with full scores. -/
theorem evaluateClosure_skipped
    (skip : config.enabled = false ∨ ExemptVerdict conclusion.verdict) :
    ∃ r, (∀ called, evaluateClosure conclusion called template config = .ok r) ∧
      r.passed = true ∧ r.evidenceClosureScore = 1 ∧ r.refutationCoverage = 1 ∧
      r.requiredCoverage = none ∧ r.rejectionReasons = [] := by
  cases henabled : config.enabled with
  | false =>
    refine ⟨{ passed := true, evidenceClosureScore := 1, refutationCoverage := 1 },
      fun called => ?_, rfl, rfl, rfl, rfl, rfl⟩
    rw [evaluateClosure, henabled, if_pos (by decide)]
    rfl
  | true =>
    have hexempt : conclusion.verdict = .insufficientInformation ∨
        conclusion.verdict = .needsHumanReview := skip.resolve_left (by simp [henabled])
    refine ⟨{ passed := true, evidenceClosureScore := 1, refutationCoverage := 1
              checks := .obj [("exempt_verdict", .str conclusion.verdict.value)] },
      fun called => ?_, rfl, rfl, rfl, rfl, rfl⟩
    rw [evaluateClosure, henabled, if_neg (by decide), if_pos hexempt]
    rfl

theorem gate_passed_iff (a c d : Bool) (missing : List Json) :
    (!(a || !missing.isEmpty || c || d)) = true ↔
      ¬ a = true ∧ missing = [] ∧ ¬ c = true ∧ ¬ d = true := by
  cases a <;> cases c <;> cases d <;> simp

theorem gate_reasons_iff (a c d : Bool) (missing : List Json) (s t u v : String) :
    (if a then [s] else []) ++ (if missing.isEmpty then [] else [t])
        ++ (if c then [u] else []) ++ (if d then [v] else []) = [] ↔
      (!(a || !missing.isEmpty || c || d)) = true := by
  cases a <;> cases missing.isEmpty <;> cases c <;> cases d <;> simp

/-- One evaluation that returns shows what an evaluation with any other called set returns. -/
theorem evaluateClosure_assessed (henabled : config.enabled = true)
    (hverdict : ¬ ExemptVerdict conclusion.verdict)
    (h : evaluateClosure conclusion called template config = .ok r) :
    ∃ l, closureLists template = .ok l ∧ ∀ more, ∃ r',
      evaluateClosure conclusion more template config = .ok r' ∧
        Assessed l conclusion.verdict config more r' := by
  have hnot : ¬ (conclusion.verdict = .insufficientInformation ∨
      conclusion.verdict = .needsHumanReview) := hverdict
  rw [evaluateClosure, henabled, if_neg (by decide), if_neg hnot] at h
  obtain ⟨fields, hfields, h⟩ := Tx.except_bind_ok.mp h
  obtain ⟨required, hrequired, h⟩ := Tx.except_bind_ok.mp h
  obtain ⟨supporting, hsupporting, h⟩ := Tx.except_bind_ok.mp h
  obtain ⟨refuting, hrefuting, h⟩ := Tx.except_bind_ok.mp h
  obtain ⟨missing, hmissing, h⟩ := Tx.except_bind_ok.mp h
  obtain ⟨supportingMatched, hsup, h⟩ := Tx.except_bind_ok.mp h
  obtain ⟨refutingAttempted, href, h⟩ := Tx.except_bind_ok.mp h
  obtain ⟨missingSkills, hnames, -⟩ := Tx.except_bind_ok.mp h
  let l : ClosureLists := { required, supporting, refuting }
  have hl : closureLists template = .ok l :=
    closureLists_eq_ok.mpr ⟨fields, hfields, hrequired, hsupporting, hrefuting⟩
  obtain rfl : uncalled called required = missing :=
    Except.ok.inj ((missingRequired_of_ok hmissing called).symm.trans hmissing)
  refine ⟨l, hl, fun more => ?_⟩
  obtain ⟨texts, htexts⟩ := joinedNames_uncalled hnames more
  rw [evaluateClosure, henabled, if_neg (by decide), if_neg hnot]
  simp only [hfields, hrequired, hsupporting, hrefuting, missingRequired_of_ok hmissing more,
    hintsCalled_of_ok hsup more, hintsCalled_of_ok href more, htexts, bind, Except.bind, pure,
    Except.pure]
  refine ⟨_, rfl, ?_⟩
  exact
    { score := rfl
      refutation := rfl
      required := rfl
      missing := rfl
      names := joinedNames_eq_ok.mp htexts
      passed := by
        rw [gate_passed_iff, ClosureLists.accepts_iff]
        simp only [Bool.and_eq_true, decide_eq_true_eq, Bool.not_eq_true', and_assoc,
          List.isEmpty_eq_false_iff]
        rfl
      reasons := gate_reasons_iff .. }

def UnitScore (q : ℚ) : Prop := 0 ≤ q ∧ q ≤ 1

/-- Every score of `r` is at most the one of `r'`. -/
structure ClosureResult.ScoresLe (r r' : ClosureResult) : Prop where
  score : r.evidenceClosureScore ≤ r'.evidenceClosureScore
  refutation : r.refutationCoverage ≤ r'.refutationCoverage
  required : ∀ q ∈ r.requiredCoverage, ∃ q' ∈ r'.requiredCoverage, q ≤ q'

/-- What every evaluation that returns satisfies. -/
structure ClosureResult.WellFormed (conclusion : ConclusionPayload) (template : Option Json)
    (config : ClosureConfig) (called : List String) (r : ClosureResult) : Prop where
  score : UnitScore r.evidenceClosureScore
  refutation : UnitScore r.refutationCoverage
  required : ∀ q ∈ r.requiredCoverage, UnitScore q
  missing : config.enabled = true → ¬ ExemptVerdict conclusion.verdict →
    ∃ l, closureLists template = .ok l ∧
      r.requiredCoverage = some (l.requiredCoverage called) ∧
      r.checks.get? "missing_skills" = some (.arr (uncalled called l.required)) ∧
      r.missingSkills.map .str = uncalled called l.required ∧
      (r.passed = true → uncalled called l.required = [])
  reasons : r.rejectionReasons ≠ [] ↔ r.passed = false

theorem unitScore_coverage {part whole : ℕ} (h : part ≤ whole) : UnitScore (coverage part whole) :=
  ⟨coverage_nonneg .., coverage_le_one h⟩

theorem wellFormed_of_evaluateClosure
    (h : evaluateClosure conclusion called template config = .ok r) :
    r.WellFormed conclusion template config called := by
  by_cases hskip : config.enabled = false ∨ ExemptVerdict conclusion.verdict
  · obtain ⟨s, hs, hpassed, hscore, hrefutation, hrequired, hreasons⟩ :=
      evaluateClosure_skipped hskip
    obtain rfl : s = r := Except.ok.inj ((hs called).symm.trans h)
    have hone : UnitScore 1 := ⟨zero_le_one, le_rfl⟩
    exact {
      score := hscore ▸ hone
      refutation := hrefutation ▸ hone
      required := fun q hq => by simp [hrequired] at hq
      missing := fun henabled hverdict => by
        rcases hskip with hoff | hexempt
        · exact absurd henabled (by simp [hoff])
        · exact absurd hexempt hverdict
      reasons := by simp [hreasons, hpassed] }
  · rw [not_or, Bool.not_eq_false] at hskip
    obtain ⟨l, hl, hall⟩ := evaluateClosure_assessed hskip.1 hskip.2 h
    obtain ⟨r', hr', assessed⟩ := hall called
    obtain rfl : r' = r := Except.ok.inj (hr'.symm.trans h)
    exact {
      score := assessed.score ▸ ⟨l.score_nonneg called, l.score_le_one called⟩
      refutation := assessed.refutation ▸ unitScore_coverage (attempted_le_length ..)
      required := fun q hq => by
        obtain rfl := Option.some.inj (assessed.required.symm.trans hq)
        exact ⟨l.requiredCoverage_nonneg called, l.requiredCoverage_le_one called⟩
      missing := fun _ _ => ⟨l, hl, assessed.required, assessed.missing, assessed.names,
        fun hp => (assessed.passed.mp hp).required⟩
      reasons := by rw [ne_eq, assessed.reasons, Bool.not_eq_true] }

/-- Whether the evaluation returns does not depend on the called set, and with more skills
called no score falls and a passing evaluation passes. -/
theorem evaluateClosure_mono (h : evaluateClosure conclusion called template config = .ok r)
    (more : List String) :
    ∃ r', evaluateClosure conclusion more template config = .ok r' ∧
      (called ⊆ more → r.ScoresLe r' ∧ (r.passed = true → r'.passed = true)) := by
  by_cases hskip : config.enabled = false ∨ ExemptVerdict conclusion.verdict
  · obtain ⟨s, hs, -⟩ := evaluateClosure_skipped hskip
    obtain rfl : s = r := Except.ok.inj ((hs called).symm.trans h)
    exact ⟨s, hs more, fun _ => ⟨⟨le_rfl, le_rfl, fun q hq => ⟨q, hq, le_rfl⟩⟩, id⟩⟩
  · rw [not_or, Bool.not_eq_false] at hskip
    obtain ⟨l, -, hall⟩ := evaluateClosure_assessed hskip.1 hskip.2 h
    obtain ⟨s, hs, assessed⟩ := hall called
    obtain rfl : s = r := Except.ok.inj (hs.symm.trans h)
    obtain ⟨r', hr', assessed'⟩ := hall more
    refine ⟨r', hr', fun hsub => ⟨⟨?_, ?_, ?_⟩, fun hp => ?_⟩⟩
    · rw [assessed.score, assessed'.score]
      exact l.score_mono hsub
    · rw [assessed.refutation, assessed'.refutation]
      exact l.refutationCoverage_mono hsub
    · intro q hq
      obtain rfl := Option.some.inj (assessed.required.symm.trans hq)
      exact ⟨_, assessed'.required, l.requiredCoverage_mono hsub⟩
    · exact assessed'.passed.mpr ((assessed.passed.mp hp).mono hsub)

/-- Every evaluation is bounded and explains itself, and gathering more evidence never makes
it worse. -/
theorem closure_bounded_and_monotone (conclusion : ConclusionPayload) (template : Option Json)
    (config : ClosureConfig) :
    (∀ called r, evaluateClosure conclusion called template config = .ok r →
      r.WellFormed conclusion template config called) ∧
    ∀ called r, evaluateClosure conclusion called template config = .ok r →
      ∀ more, ∃ r', evaluateClosure conclusion more template config = .ok r' ∧
        (called ⊆ more → r.ScoresLe r' ∧ (r.passed = true → r'.passed = true)) := by
  constructor
  · intro called r h
    exact wellFormed_of_evaluateClosure h
  · intro called r h more
    exact evaluateClosure_mono h more

/-- A confirmed attack under a template that asks for one skill and one refutation. -/
def attackConclusion : ConclusionPayload where
  verdict := .attackConfirmed
  confidence := 9 / 10
  riskLevel := .high
  reasoning := "failed logins followed by a success"

def oneSkillTemplate : Json :=
  .obj [("required_skills_before_conclude", .arr [.str "query_asset"]),
    ("refuting_hints", .arr [.obj [("skill", .str "query_entity_graph")]])]

theorem closure_bounded_and_monotone_attack :
    ∃ r r', evaluateClosure attackConclusion [] (some oneSkillTemplate) {} = .ok r ∧
      evaluateClosure attackConclusion ["query_asset"] (some oneSkillTemplate) {} = .ok r' ∧
      r.WellFormed attackConclusion (some oneSkillTemplate) {} [] ∧ r.ScoresLe r' := by
  obtain ⟨hwell, hmono⟩ :=
    closure_bounded_and_monotone attackConclusion (some oneSkillTemplate) {}
  obtain ⟨r', hr', hle⟩ := hmono [] _ rfl ["query_asset"]
  exact ⟨_, r', rfl, hr', hwell [] _ rfl, (hle (List.nil_subset _)).1⟩

end Minsight

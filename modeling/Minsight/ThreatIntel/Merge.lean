import Mathlib.Algebra.Order.Ring.Rat
import Mathlib.Data.Finset.Sort
import Mathlib.Data.List.MinMax
import Mathlib.Data.Prod.Lex
import Mathlib.Data.String.Basic
import Mathlib.Order.Bounds.Basic
import Minsight.Foundation.Json
import Minsight.Foundation.Text

/-! # What several threat-intel providers say together

Providers answer in any order and may answer twice, and `mergeLookupResults` makes one cache row of
their answers. The verdict, the confidence and the source of that row are a function of the set of
answers.
-/

namespace Minsight

inductive ThreatIntelVerdict
  | malicious
  | suspicious
  | clean
  | unknown
deriving DecidableEq

def ThreatIntelVerdict.value : ThreatIntelVerdict → String
  | .malicious => "malicious"
  | .suspicious => "suspicious"
  | .clean => "clean"
  | .unknown => "unknown"

/-- `_VERDICT_RANK` -/
def verdictRank : ThreatIntelVerdict → ℕ
  | .clean => 1
  | .unknown => 2
  | .suspicious => 3
  | .malicious => 4

structure IntelLookupResult where
  verdict : ThreatIntelVerdict
  source : String
  confidence : ℚ
  rawResponse : List (String × Json) := []

/-- `{item.source: item.raw_response for item in results}` -/
def rawResponses (results : List IntelLookupResult) : List (String × Json) :=
  results.foldl (fun fields item => setField fields item.source (.obj item.rawResponse)) []

/-- `sorted({item.source for item in results})` -/
def sortedSources (results : List IntelLookupResult) : List String :=
  (results.map (·.source)).toFinset.sort

def mergeLookupResults (results : List IntelLookupResult) : Option IntelLookupResult := do
  let best ← results.argmax fun item => toLex (verdictRank item.verdict, item.confidence)
  let confidence ← ((results.filter (·.verdict = best.verdict)).map (·.confidence)).max?
  return {
    verdict := best.verdict
    source := joinText "," (sortedSources results)
    confidence
    rawResponse := rawResponses results }

theorem verdictRank_injective : verdictRank.Injective := by
  intro v w h
  cases v <;> cases w <;> first | rfl | cases h

/-- What a merged row says of a set of answers. -/
structure IsMergeOf (results : List IntelLookupResult) (merged : IntelLookupResult) : Prop where
  present : ∃ r ∈ results, r.verdict = merged.verdict
  highest : ∀ r ∈ results, verdictRank r.verdict ≤ verdictRank merged.verdict
  confidence :
    IsGreatest {c | ∃ r ∈ results, r.verdict = merged.verdict ∧ r.confidence = c} merged.confidence
  source : ∃ names : List String, names.SortedLT ∧
    (∀ name, name ∈ names ↔ ∃ r ∈ results, r.source = name) ∧ merged.source = joinText "," names

variable {results results' : List IntelLookupResult} {merged merged' : IntelLookupResult}

theorem sortedSources_sorted (results : List IntelLookupResult) :
    (sortedSources results).SortedLT :=
  Finset.sortedLT_sort _

theorem mem_sortedSources {name : String} :
    name ∈ sortedSources results ↔ ∃ r ∈ results, r.source = name := by
  simp [sortedSources]

theorem mergeLookupResults_isMergeOf (h : mergeLookupResults results = some merged) :
    IsMergeOf results merged := by
  obtain ⟨best, hbest, h⟩ := Option.bind_eq_some_iff.mp h
  obtain ⟨confidence, hmax, h⟩ := Option.bind_eq_some_iff.mp h
  obtain rfl := Option.some.inj h
  obtain ⟨hmem, hle⟩ := List.max?_eq_some_iff.mp hmax
  have hbest_mem : best ∈ results := List.argmax_mem hbest
  constructor
  · exact ⟨best, hbest_mem, rfl⟩
  · intro r hr
    exact (Prod.Lex.le_iff'.mp (List.le_of_mem_argmax hr hbest)).1
  · constructor
    · obtain ⟨r, hr, rfl⟩ := List.mem_map.mp hmem
      exact ⟨r, List.mem_of_mem_filter hr, by simpa using (List.mem_filter.mp hr).2, rfl⟩
    · rintro c ⟨r, hr, hverdict, rfl⟩
      exact hle _ (List.mem_map_of_mem (List.mem_filter.mpr ⟨hr, by simpa using hverdict⟩))
  · exact ⟨sortedSources results, sortedSources_sorted results, fun _ => mem_sortedSources, rfl⟩

theorem mergeLookupResults_ne_none (h : results ≠ []) :
    ∃ merged, mergeLookupResults results = some merged := by
  cases hbest : results.argmax fun item => toLex (verdictRank item.verdict, item.confidence) with
  | none => exact absurd (List.argmax_eq_none.mp hbest) h
  | some best =>
    have hmem : best ∈ results.filter (·.verdict = best.verdict) := by
      simpa using List.argmax_mem hbest
    cases hmax : ((results.filter (·.verdict = best.verdict)).map (·.confidence)).max? with
    | none =>
      have hnil := List.map_eq_nil_iff.mp (List.max?_eq_none_iff.mp hmax)
      rw [hnil] at hmem
      exact absurd hmem List.not_mem_nil
    | some confidence => simp [mergeLookupResults, hbest, hmax]

theorem IsMergeOf.rank_le (h : IsMergeOf results merged) (h' : IsMergeOf results' merged')
    (hsub : results ⊆ results') : verdictRank merged.verdict ≤ verdictRank merged'.verdict := by
  obtain ⟨r, hr, hverdict⟩ := h.present
  rw [← hverdict]
  exact h'.highest r (hsub hr)

theorem IsMergeOf.unique (h : IsMergeOf results merged) (h' : IsMergeOf results' merged')
    (hmem : ∀ r, r ∈ results ↔ r ∈ results') :
    merged.verdict = merged'.verdict ∧ merged.confidence = merged'.confidence ∧
      merged.source = merged'.source := by
  have hverdict : merged.verdict = merged'.verdict := verdictRank_injective <|
    le_antisymm (h.rank_le h' fun r => (hmem r).mp) (h'.rank_le h fun r => (hmem r).mpr)
  obtain ⟨names, hsorted, hnames, hsource⟩ := h.source
  obtain ⟨names', hsorted', hnames', hsource'⟩ := h'.source
  have hconfidence := h.confidence
  simp only [hmem, hverdict] at hconfidence
  have hperm : names.Perm names' := (List.perm_ext_iff_of_nodup hsorted.nodup hsorted'.nodup).mpr
    fun name => by rw [hnames, hnames']; simp only [hmem]
  have heq : names = names' := hperm.eq_of_sortedLE hsorted.sortedLE hsorted'.sortedLE
  exact ⟨hverdict, hconfidence.unique h'.confidence, by rw [hsource, hsource', heq]⟩

/-- The merged row of a list of answers says what the set of answers says: the highest verdict, the
greatest confidence in it and every source. Another list with the same answers gives the same, in
whatever order and however often they stand in it, and more answers never lower the rank. -/
theorem mergeLookupResults_of_set (h : results ≠ []) :
    ∃ merged, mergeLookupResults results = some merged ∧ IsMergeOf results merged ∧
      (∀ results', (∀ r, r ∈ results ↔ r ∈ results') →
        ∃ merged', mergeLookupResults results' = some merged' ∧
          merged.verdict = merged'.verdict ∧ merged.confidence = merged'.confidence ∧
          merged.source = merged'.source) ∧
      ∀ results', results ⊆ results' →
        ∃ merged', mergeLookupResults results' = some merged' ∧
          verdictRank merged.verdict ≤ verdictRank merged'.verdict := by
  obtain ⟨merged, hmerged⟩ := mergeLookupResults_ne_none h
  have hmerge := mergeLookupResults_isMergeOf hmerged
  have hmore : ∀ results', results ⊆ results' →
      ∃ merged', mergeLookupResults results' = some merged' ∧ IsMergeOf results' merged' := by
    intro results' hsub
    obtain ⟨r, hr⟩ := List.exists_mem_of_ne_nil _ h
    obtain ⟨merged', hmerged'⟩ := mergeLookupResults_ne_none (List.ne_nil_of_mem (hsub hr))
    exact ⟨merged', hmerged', mergeLookupResults_isMergeOf hmerged'⟩
  refine ⟨merged, hmerged, hmerge, ?_, ?_⟩
  · intro results' hmem
    obtain ⟨merged', hmerged', hmerge'⟩ := hmore results' fun r => (hmem r).mp
    exact ⟨merged', hmerged', hmerge.unique hmerge' hmem⟩
  · intro results' hsub
    obtain ⟨merged', hmerged', hmerge'⟩ := hmore results' hsub
    exact ⟨merged', hmerged', hmerge.rank_le hmerge' hsub⟩

/-- Two providers that disagree on one address. -/
theorem mergeLookupResults_of_two :
    let results : List IntelLookupResult :=
      [{ verdict := .clean, source := "greynoise", confidence := 17 / 20 },
        { verdict := .malicious, source := "abuseipdb", confidence := 9 / 10 }]
    ∃ merged, mergeLookupResults results = some merged ∧ IsMergeOf results merged := by
  obtain ⟨merged, hmerged, hmerge, -, -⟩ := @mergeLookupResults_of_set
    [{ verdict := .clean, source := "greynoise", confidence := 17 / 20 },
      { verdict := .malicious, source := "abuseipdb", confidence := 9 / 10 }]
    (List.cons_ne_nil _ _)
  exact ⟨merged, hmerged, hmerge⟩

end Minsight

import Mathlib.Algebra.BigOperators.Group.List.Basic
import Mathlib.Algebra.Order.Ring.Rat
import Mathlib.Data.Finset.Card
import Minsight.Foundation.Decimal
import Minsight.Foundation.Groups
import Minsight.Model.World

/-! # Noisy rules

`aggregateRuleNoise` counts what became of the events of each rule and lists the rules that look
noisy. What it counts for a rule is a function of the set of its samples, and `list_noisy_rules`
makes one sample of all the rows that its joins return for a rule and an event.
-/

namespace Minsight

structure NoiseSample where
  ruleId : Option String := none
  ruleName : Option String := none
  eventId : String
  verdict : Option String := none
  alertCount : Option ℤ := none
  humanConfirmed : Bool := false
  humanRejected : Bool := false

/-- `(text or "").strip() or None` -/
def cleanText (text : Option String) : Option String :=
  truthyText (some (strip (text.getD "")))

def ruleKey (ruleId ruleName : Option String) : Option String :=
  (cleanText ruleId).or (cleanText ruleName)

def NoiseSample.key (sample : NoiseSample) : Option String :=
  ruleKey sample.ruleId sample.ruleName

/-- `FP` -/
def noiseFp : String := InvestigationVerdict.likelyFalsePositive.value

/-- `ATTACK` -/
def noiseAttack : String := InvestigationVerdict.attackConfirmed.value

structure RuleCounts where
  alertCount : ℤ := 0
  fpEvents : ℕ := 0
  attackEvents : ℕ := 0
  humanConfirmedFp : ℕ := 0
  humanRejectedFp : ℕ := 0
  humanConfirmedAttack : ℕ := 0
  humanRejectedAttack : ℕ := 0
deriving DecidableEq

structure RuleBucket extends RuleCounts where
  ruleId : Option String
  ruleName : Option String
  eventIds : List String := []

def startBucket (sample : NoiseSample) : RuleBucket where
  ruleId := cleanText sample.ruleId
  ruleName := cleanText sample.ruleName

/-- An event that the bucket does not hold yet, by its verdict and the human decision on it. -/
def countEvent (counts : RuleCounts) (sample : NoiseSample) : RuleCounts :=
  let confirmed := sample.humanConfirmed
  let rejected := sample.humanRejected && !confirmed
  if sample.verdict.getD "" = noiseFp then
    { counts with
      fpEvents := counts.fpEvents + 1
      humanConfirmedFp := counts.humanConfirmedFp + confirmed.toNat
      humanRejectedFp := counts.humanRejectedFp + rejected.toNat }
  else if sample.verdict.getD "" = noiseAttack then
    { counts with
      attackEvents := counts.attackEvents + 1
      humanConfirmedAttack := counts.humanConfirmedAttack + confirmed.toNat
      humanRejectedAttack := counts.humanRejectedAttack + rejected.toNat }
  else counts

def addSample (bucket : RuleBucket) (sample : NoiseSample) : RuleBucket :=
  let ruleName := bucket.ruleName.or (cleanText sample.ruleName)
  let counts := { bucket.toRuleCounts with
    alertCount := bucket.alertCount + sample.alertCount.getD 0 }
  if sample.eventId ∈ bucket.eventIds then { bucket with toRuleCounts := counts, ruleName }
  else
    { bucket with
      toRuleCounts := countEvent counts sample
      ruleName
      eventIds := bucket.eventIds ++ [sample.eventId] }

/-- `_suggestion` -/
def noiseSuggestion (bucket : RuleBucket) (eventCount : ℕ) : Option String :=
  let name := (bucket.ruleName.or bucket.ruleId).getD "该规则"
  if 1 ≤ bucket.humanConfirmedFp ∧ bucket.humanConfirmedAttack ≤ bucket.humanConfirmedFp then
    some ("人工已确认 " ++ toString bucket.humanConfirmedFp ++ " 起按误报处置，建议在 Wazuh 收紧规则「"
      ++ name ++ "」或为已知业务增加例外。")
  else if bucket.humanConfirmedFp = 0 ∧ 2 ≤ bucket.fpEvents ∧
      bucket.attackEvents < bucket.fpEvents ∧ (1 / 2 : ℚ) ≤ bucket.fpEvents / eventCount then
    some "AI 多次判为误报，尚无人工确认。建议抽查事件后再决定是否修改 Wazuh 规则。"
  else none

structure NoiseRow extends RuleCounts where
  ruleId : Option String
  ruleName : Option String
  eventCount : ℕ
  fpRatio : ℚ
  suggestion : String

/-- The row of a bucket; none for a rule that nothing is suggested for. -/
def noiseRow (bucket : RuleBucket) : Option NoiseRow :=
  let eventCount := bucket.eventIds.length
  if eventCount = 0 then none
  else
    (noiseSuggestion bucket eventCount).map fun suggestion =>
      { toRuleCounts := bucket.toRuleCounts
        ruleId := bucket.ruleId
        ruleName := bucket.ruleName.or bucket.ruleId
        eventCount
        fpRatio := Arithmetic.binary64.roundTo 2
          (Arithmetic.binary64.round (bucket.fpEvents / eventCount))
        suggestion }

def RuleCounts.rank (counts : RuleCounts) : ℕ ×ₗ ℕ ×ₗ ℤ :=
  toLex (counts.humanConfirmedFp, toLex (counts.fpEvents, counts.alertCount))

def noisyRules (samples : List NoiseSample) : List NoiseRow :=
  (groups NoiseSample.key startBucket addSample samples).filterMap fun group => noiseRow group.2

def aggregateRuleNoise (samples : List NoiseSample) (limit : ℤ) : List NoiseRow :=
  sliceList limit
    ((noisyRules samples).insertionSort fun a b => b.toRuleCounts.rank ≤ a.toRuleCounts.rank)

def countsOf (samples : List NoiseSample) : RuleCounts where
  alertCount := (samples.map (·.alertCount.getD 0)).sum
  fpEvents := samples.countP fun s => decide (s.verdict.getD "" = noiseFp)
  attackEvents := samples.countP fun s => decide (s.verdict.getD "" = noiseAttack)
  humanConfirmedFp := samples.countP fun s =>
    decide (s.verdict.getD "" = noiseFp) && s.humanConfirmed
  humanRejectedFp := samples.countP fun s =>
    decide (s.verdict.getD "" = noiseFp) && (s.humanRejected && !s.humanConfirmed)
  humanConfirmedAttack := samples.countP fun s =>
    decide (s.verdict.getD "" = noiseAttack) && s.humanConfirmed
  humanRejectedAttack := samples.countP fun s =>
    decide (s.verdict.getD "" = noiseAttack) && (s.humanRejected && !s.humanConfirmed)

def Suggested (counts : RuleCounts) (eventCount : ℕ) : Prop :=
  (1 ≤ counts.humanConfirmedFp ∧ counts.humanConfirmedAttack ≤ counts.humanConfirmedFp) ∨
    (counts.humanConfirmedFp = 0 ∧ 2 ≤ counts.fpEvents ∧ counts.attackEvents < counts.fpEvents ∧
      eventCount ≤ 2 * counts.fpEvents)

def ruleSamples (samples : List NoiseSample) (key : String) : List NoiseSample :=
  ofKey NoiseSample.key samples key

/-- No event has two samples of one rule. -/
def DistinctKeys (samples : List NoiseSample) : Prop :=
  ∀ key, ((ruleSamples samples key).map (·.eventId)).Nodup

/-- The key of the rule that a row is about. -/
def NoiseRow.key (row : NoiseRow) : Option String := row.ruleId.or row.ruleName

structure IsRowOf (samples : List NoiseSample) (key : String) (row : NoiseRow) : Prop where
  about : row.key = some key
  counts : row.toRuleCounts = countsOf (ruleSamples samples key)
  events : row.eventCount = (ruleSamples samples key).length
  suggested : Suggested row.toRuleCounts row.eventCount

theorem countP_concat {α : Type} (p : α → Bool) (l : List α) (a : α) :
    (l ++ [a]).countP p = l.countP p + (p a).toNat := by
  rw [List.countP_append, List.countP_singleton]
  cases p a <;> rfl

theorem noiseFp_ne_noiseAttack : noiseFp ≠ noiseAttack := by decide

theorem countsOf_concat (samples : List NoiseSample) (s : NoiseSample) :
    countsOf (samples ++ [s]) = countEvent { countsOf samples with
      alertCount := (countsOf samples).alertCount + s.alertCount.getD 0 } s := by
  have hne := noiseFp_ne_noiseAttack
  rw [countsOf, countEvent]
  simp only [countP_concat, List.map_append, List.map_singleton, List.sum_append,
    List.sum_singleton]
  by_cases hfp : s.verdict.getD "" = noiseFp
  · have hattack : s.verdict.getD "" ≠ noiseAttack := hfp ▸ hne
    simp [hfp, hne, countsOf]
  · by_cases hattack : s.verdict.getD "" = noiseAttack
    · simp [hattack, hne.symm, countsOf]
    · simp [hfp, hattack, countsOf]

structure IsBucketOf (samples : List NoiseSample) (bucket : RuleBucket) : Prop where
  counts : bucket.toRuleCounts = countsOf samples
  events : bucket.eventIds = samples.map (·.eventId)
  ruleId : ∀ s ∈ samples.head?, bucket.ruleId = cleanText s.ruleId
  ruleName : ∀ s ∈ samples.head?, (cleanText s.ruleName).isSome = true →
    bucket.ruleName = cleanText s.ruleName

theorem IsBucketOf.addSample {samples : List NoiseSample} {bucket : RuleBucket} {s : NoiseSample}
    (h : IsBucketOf samples bucket) (hne : samples ≠ [])
    (hnew : s.eventId ∉ samples.map (·.eventId)) :
    IsBucketOf (samples ++ [s]) (addSample bucket s) := by
  obtain ⟨first, rest, rfl⟩ := List.exists_cons_of_ne_nil hne
  have hnew' : s.eventId ∉ bucket.eventIds := by
    rw [h.events]
    exact hnew
  rw [Minsight.addSample]
  simp only [if_neg hnew']
  constructor
  · rw [countsOf_concat, ← h.counts]
  · rw [List.map_append, h.events]
    rfl
  · rintro s' ⟨⟩
    exact h.ruleId first rfl
  · rintro s' ⟨⟩ hsome
    have hname := h.ruleName first rfl hsome
    simp only [hname, Option.or_of_isSome hsome]

theorem isBucketOf_start (s : NoiseSample) :
    IsBucketOf [s] (addSample (startBucket s) s) := by
  have hnew : s.eventId ∉ (startBucket s).eventIds := List.not_mem_nil
  have hcounts := countsOf_concat [] s
  rw [List.nil_append] at hcounts
  rw [addSample]
  simp only [if_neg hnew]
  constructor
  · rw [hcounts]
    rfl
  · rfl
  · rintro _ ⟨⟩
    simp only [startBucket]
  · rintro _ ⟨⟩ -
    simp only [startBucket, Option.or_self]

theorem isBucketOf_foldGroup {samples : List NoiseSample} {bucket : RuleBucket}
    (hnodup : (samples.map (·.eventId)).Nodup)
    (h : foldGroup startBucket addSample samples = some bucket) : IsBucketOf samples bucket := by
  induction samples using List.reverseRecOn generalizing bucket with
  | nil => cases h
  | append_singleton samples s ih =>
    rw [foldGroup_concat] at h
    obtain rfl := Option.some.inj h
    rw [List.map_append, List.map_singleton, List.nodup_append] at hnodup
    obtain ⟨hnodup, -, hdisjoint⟩ := hnodup
    cases hgroup : foldGroup startBucket addSample samples with
    | none =>
      obtain rfl := foldGroup_eq_none.mp hgroup
      exact isBucketOf_start s
    | some before =>
      have hne : samples ≠ [] := by
        rintro rfl
        cases hgroup
      exact (ih hnodup hgroup).addSample hne fun hmem =>
        hdisjoint _ hmem _ List.mem_cons_self rfl

structure RuleCounts.Bounded (counts : RuleCounts) (eventCount : ℕ) : Prop where
  verdicts : counts.fpEvents + counts.attackEvents ≤ eventCount
  fp : counts.humanConfirmedFp + counts.humanRejectedFp ≤ counts.fpEvents
  attack : counts.humanConfirmedAttack + counts.humanRejectedAttack ≤ counts.attackEvents

theorem countsOf_bounded (samples : List NoiseSample) :
    (countsOf samples).Bounded samples.length := by
  induction samples using List.reverseRecOn with
  | nil => exact ⟨le_rfl, le_rfl, le_rfl⟩
  | append_singleton samples s ih =>
    obtain ⟨hverdicts, hfp, hattack⟩ := ih
    have hone : s.humanConfirmed.toNat + (s.humanRejected && !s.humanConfirmed).toNat ≤ 1 := by
      cases s.humanConfirmed <;> cases s.humanRejected <;> decide
    rw [countsOf_concat, List.length_append, List.length_singleton, countEvent]
    split
    · constructor <;> dsimp only <;> omega
    · split
      · constructor <;> dsimp only <;> omega
      · constructor <;> dsimp only <;> omega

theorem Suggested.ne_nil {samples : List NoiseSample}
    (h : Suggested (countsOf samples) samples.length) : samples ≠ [] := by
  rintro rfl
  rcases h with ⟨h, -⟩ | ⟨-, h, -⟩
  · cases h
  · cases h

theorem half_le_div_iff {m n : ℕ} (hn : n ≠ 0) : (1 / 2 : ℚ) ≤ m / n ↔ n ≤ 2 * m := by
  have hpos : (0 : ℚ) < n := Nat.cast_pos.mpr (Nat.pos_of_ne_zero hn)
  rw [div_le_div_iff₀ (by norm_num) hpos, one_mul, mul_comm]
  exact_mod_cast Iff.rfl

theorem noiseRow_isSome_iff {samples : List NoiseSample} {bucket : RuleBucket}
    (h : IsBucketOf samples bucket) (hne : samples ≠ []) :
    (noiseRow bucket).isSome = true ↔ Suggested (countsOf samples) samples.length := by
  have hlength : bucket.eventIds.length = samples.length := by rw [h.events, List.length_map]
  have hzero : samples.length ≠ 0 := (List.length_pos_of_ne_nil hne).ne'
  have hcounts := h.counts
  rw [noiseRow, hlength]
  simp only [if_neg hzero, Option.isSome_map, Suggested, ← hcounts, noiseSuggestion,
    half_le_div_iff hzero]
  split
  · rename_i hyes
    simp [hyes]
  · rename_i hno
    split
    · rename_i hyes
      simp [hyes]
    · rename_i hno'
      simp [hno, hno']

theorem noiseRow_counts {bucket : RuleBucket} {row : NoiseRow} (h : noiseRow bucket = some row) :
    row.toRuleCounts = bucket.toRuleCounts ∧ row.eventCount = bucket.eventIds.length ∧
      row.ruleId = bucket.ruleId ∧ row.ruleName = bucket.ruleName.or bucket.ruleId := by
  rw [noiseRow] at h
  dsimp only at h
  split at h
  · cases h
  · obtain ⟨text, -, rfl⟩ := Option.map_eq_some_iff.mp h
    exact ⟨rfl, rfl, rfl, rfl⟩

theorem noiseRow_key {samples : List NoiseSample} {key : String} {bucket : RuleBucket}
    {row : NoiseRow} (h : IsBucketOf (ruleSamples samples key) bucket)
    (hne : ruleSamples samples key ≠ []) (hrow : noiseRow bucket = some row) :
    row.key = some key := by
  obtain ⟨first, rest, hsamples⟩ := List.exists_cons_of_ne_nil hne
  have hfirst : first.key = some key := by
    have hmem : first ∈ ruleSamples samples key := hsamples ▸ List.mem_cons_self
    simpa [ruleSamples, ofKey] using (List.mem_filter.mp hmem).2
  have hhead : (ruleSamples samples key).head? = some first := by rw [hsamples]; rfl
  have hid := h.ruleId first hhead
  obtain ⟨-, -, hrowId, hrowName⟩ := noiseRow_counts hrow
  rw [NoiseRow.key, hrowId, hrowName, hid]
  rw [NoiseSample.key, ruleKey] at hfirst
  cases hclean : cleanText first.ruleId with
  | some id =>
    rw [hclean, Option.some_or] at hfirst
    rw [Option.some_or, hfirst]
  | none =>
    rw [hclean, Option.none_or] at hfirst
    have hname := h.ruleName first hhead (hfirst ▸ rfl)
    rw [hname, hfirst]
    rfl

section

variable {samples samples' : List NoiseSample} {limit : ℤ} {key : String} {row row' : NoiseRow}

theorem mem_noisyRules : row ∈ noisyRules samples ↔ ∃ key bucket,
    foldGroup startBucket addSample (ruleSamples samples key) = some bucket ∧
      noiseRow bucket = some row := by
  rw [noisyRules, List.mem_filterMap]
  constructor
  · rintro ⟨⟨key, bucket⟩, hmem, hrow⟩
    exact ⟨key, bucket, mem_groups.mp hmem, hrow⟩
  · rintro ⟨key, bucket, hgroup, hrow⟩
    exact ⟨(key, bucket), mem_groups.mpr hgroup, hrow⟩

theorem foldGroup_ne_nil {bucket : RuleBucket} {l : List NoiseSample}
    (h : foldGroup startBucket addSample l = some bucket) : l ≠ [] := by
  rintro rfl
  cases h

theorem isRowOf_of_group {bucket : RuleBucket} (hdistinct : DistinctKeys samples)
    (hgroup : foldGroup startBucket addSample (ruleSamples samples key) = some bucket)
    (hrow : noiseRow bucket = some row) : IsRowOf samples key row := by
  have hne := foldGroup_ne_nil hgroup
  have hbucket := isBucketOf_foldGroup (hdistinct key) hgroup
  obtain ⟨hcounts, hevents, -, -⟩ := noiseRow_counts hrow
  rw [hbucket.counts] at hcounts
  rw [hbucket.events, List.length_map] at hevents
  have hsome := (noiseRow_isSome_iff hbucket hne).mp (hrow ▸ rfl)
  exact ⟨noiseRow_key hbucket hne hrow, hcounts, hevents, by rw [hcounts, hevents]; exact hsome⟩

theorem isRowOf_of_mem (hdistinct : DistinctKeys samples) (h : row ∈ noisyRules samples) :
    ∃ key, IsRowOf samples key row := by
  obtain ⟨key, bucket, hgroup, hrow⟩ := mem_noisyRules.mp h
  exact ⟨key, isRowOf_of_group hdistinct hgroup hrow⟩

theorem exists_row (hdistinct : DistinctKeys samples)
    (h : Suggested (countsOf (ruleSamples samples key)) (ruleSamples samples key).length) :
    ∃ row ∈ noisyRules samples, IsRowOf samples key row := by
  cases hgroup : foldGroup startBucket addSample (ruleSamples samples key) with
  | none => exact absurd (foldGroup_eq_none.mp hgroup) h.ne_nil
  | some bucket =>
    have hbucket := isBucketOf_foldGroup (hdistinct key) hgroup
    obtain ⟨row, hrow⟩ := Option.isSome_iff_exists.mp
      ((noiseRow_isSome_iff hbucket h.ne_nil).mpr h)
    exact ⟨row, mem_noisyRules.mpr ⟨key, bucket, hgroup, hrow⟩,
      isRowOf_of_group hdistinct hgroup hrow⟩

theorem noisyRules_once (hdistinct : DistinctKeys samples) :
    ((noisyRules samples).map NoiseRow.key).Nodup := by
  have hkeys := @groups_nodup _ _ _ _ NoiseSample.key startBucket addSample samples
  rw [noisyRules, List.nodup_iff_pairwise_ne, List.pairwise_map, List.pairwise_filterMap]
  rw [List.nodup_iff_pairwise_ne, List.pairwise_map] at hkeys
  refine hkeys.imp_of_mem ?_
  rintro ⟨k, b⟩ ⟨k', b'⟩ hmem hmem' hne row hrow row' hrow' heq
  have habout := (isRowOf_of_group hdistinct (mem_groups.mp hmem) hrow).about
  have habout' := (isRowOf_of_group hdistinct (mem_groups.mp hmem') hrow').about
  rw [habout, habout'] at heq
  exact hne (Option.some.inj heq)

/-- Rows that rank the noisy rules among samples, at most as many as the limit. -/
structure RanksNoise (samples : List NoiseSample) (limit : ℤ) (rows : List NoiseRow) : Prop where
  exact : ∀ row ∈ rows, ∃ key, IsRowOf samples key row
  bounded : ∀ row ∈ rows, row.toRuleCounts.Bounded row.eventCount
  once : (rows.map NoiseRow.key).Nodup
  sorted : rows.Pairwise fun a b => b.toRuleCounts.rank ≤ a.toRuleCounts.rank
  atMost : 0 ≤ limit → (rows.length : ℤ) ≤ limit
  top : ∀ key, Suggested (countsOf (ruleSamples samples key)) (ruleSamples samples key).length →
    (∃ row ∈ rows, IsRowOf samples key row) ∨ ((0 ≤ limit → (rows.length : ℤ) = limit) ∧
      ∀ row ∈ rows, (countsOf (ruleSamples samples key)).rank ≤ row.toRuleCounts.rank)

def rankedRules (samples : List NoiseSample) : List NoiseRow :=
  (noisyRules samples).insertionSort fun a b => b.toRuleCounts.rank ≤ a.toRuleCounts.rank

instance : Std.Total fun a b : NoiseRow => b.toRuleCounts.rank ≤ a.toRuleCounts.rank where
  total _ _ := le_total _ _

instance : IsTrans NoiseRow fun a b => b.toRuleCounts.rank ≤ a.toRuleCounts.rank where
  trans _ _ _ h h' := h'.trans h

theorem rankedRules_perm : (rankedRules samples).Perm (noisyRules samples) :=
  List.perm_insertionSort _ _

theorem rankedRules_sorted : (rankedRules samples).Pairwise
    fun a b => b.toRuleCounts.rank ≤ a.toRuleCounts.rank :=
  List.pairwise_insertionSort _ _

theorem sliceList_eq_take {α : Type} (limit : ℤ) (l : List α) :
    ∃ n, sliceList limit l = l.take n ∧ (0 ≤ limit → n = limit.toNat) := by
  unfold sliceList
  split
  · exact ⟨_, rfl, fun _ => rfl⟩
  · rename_i hneg
    exact ⟨_, rfl, fun h => absurd h hneg⟩

theorem aggregateRuleNoise_ranks (hdistinct : DistinctKeys samples) (limit : ℤ) :
    RanksNoise samples limit (aggregateRuleNoise samples limit) := by
  obtain ⟨n, hslice, hn⟩ := sliceList_eq_take limit (rankedRules samples)
  have hrows : aggregateRuleNoise samples limit = (rankedRules samples).take n := hslice
  have hmem : ∀ row ∈ aggregateRuleNoise samples limit, ∃ key, IsRowOf samples key row := by
    intro row hrow
    rw [hrows] at hrow
    exact isRowOf_of_mem hdistinct (rankedRules_perm.subset (List.mem_of_mem_take hrow))
  constructor
  · exact hmem
  · intro row hrow
    obtain ⟨key, h⟩ := hmem row hrow
    rw [h.counts, h.events]
    exact countsOf_bounded _
  · rw [hrows]
    have hnodup := (rankedRules_perm.map NoiseRow.key).nodup_iff.mpr (noisyRules_once hdistinct)
    exact hnodup.sublist ((List.take_sublist _ _).map _)
  · rw [hrows]
    exact rankedRules_sorted.sublist (List.take_sublist _ _)
  · intro hlimit
    rw [hrows, hn hlimit, List.length_take]
    omega
  · intro key hsuggested
    obtain ⟨row, hrow, habout⟩ := exists_row hdistinct hsuggested
    have hranked := rankedRules_perm.symm.subset hrow
    rw [← List.take_append_drop n (rankedRules samples), List.mem_append] at hranked
    rcases hranked with htake | hdrop
    · exact .inl ⟨row, hrows ▸ htake, habout⟩
    · refine .inr ⟨fun hlimit => ?_, fun above habove => ?_⟩
      · have hlength := List.length_pos_of_mem hdrop
        have hlimit' := hn hlimit
        rw [List.length_drop] at hlength
        rw [hrows, List.length_take]
        omega
      · rw [hrows] at habove
        have hsorted := @rankedRules_sorted samples
        rw [← List.take_append_drop n (rankedRules samples), List.pairwise_append] at hsorted
        rw [← habout.counts]
        exact hsorted.2.2 above habove row hdrop

theorem countsOf_perm (h : samples.Perm samples') : countsOf samples = countsOf samples' := by
  simp only [countsOf, h.countP_eq, (h.map fun s => s.alertCount.getD 0).sum_eq]

theorem ruleSamples_perm (h : samples.Perm samples') (key : String) :
    (ruleSamples samples key).Perm (ruleSamples samples' key) :=
  h.filter _

theorem DistinctKeys.perm (hdistinct : DistinctKeys samples) (h : samples.Perm samples') :
    DistinctKeys samples' :=
  fun key => ((ruleSamples_perm h key).map _).nodup_iff.mp (hdistinct key)

theorem IsRowOf.perm (hrow : IsRowOf samples key row) (h : samples.Perm samples') :
    IsRowOf samples' key row where
  about := hrow.about
  counts := hrow.counts.trans (countsOf_perm (ruleSamples_perm h key))
  events := hrow.events.trans (ruleSamples_perm h key).length_eq
  suggested := hrow.suggested

def NoiseRow.counters (row : NoiseRow) : Option String × RuleCounts × ℕ :=
  (row.key, row.toRuleCounts, row.eventCount)

theorem IsRowOf.counters_eq (hrow : IsRowOf samples key row) (hrow' : IsRowOf samples key row') :
    row.counters = row'.counters := by
  rw [NoiseRow.counters, NoiseRow.counters, hrow.about, hrow'.about, hrow.counts, hrow'.counts,
    hrow.events, hrow'.events]

theorem counters_subset (hdistinct : DistinctKeys samples) (h : samples.Perm samples') :
    (noisyRules samples).map NoiseRow.counters ⊆ (noisyRules samples').map NoiseRow.counters := by
  intro counters hmem
  obtain ⟨row, hrow, rfl⟩ := List.mem_map.mp hmem
  obtain ⟨key, hkey⟩ := isRowOf_of_mem hdistinct hrow
  have hkey' := hkey.perm h
  have hsuggested := hkey'.suggested
  rw [hkey'.counts, hkey'.events] at hsuggested
  obtain ⟨row', hrow', habout⟩ := exists_row (hdistinct.perm h) hsuggested
  rw [hkey'.counters_eq habout]
  exact List.mem_map_of_mem hrow'

theorem counters_nodup (hdistinct : DistinctKeys samples) :
    ((noisyRules samples).map NoiseRow.counters).Nodup := by
  have hkeys := noisyRules_once hdistinct
  have hmap : (noisyRules samples).map NoiseRow.key =
      ((noisyRules samples).map NoiseRow.counters).map Prod.fst := by
    rw [List.map_map]
    rfl
  rw [hmap] at hkeys
  exact hkeys.of_map _

theorem counters_perm (hdistinct : DistinctKeys samples) (h : samples.Perm samples') :
    ((noisyRules samples).map NoiseRow.counters).Perm
      ((noisyRules samples').map NoiseRow.counters) :=
  (List.perm_ext_iff_of_nodup (counters_nodup hdistinct)
    (counters_nodup (hdistinct.perm h))).mpr fun _ =>
      ⟨fun hmem => counters_subset hdistinct h hmem,
        fun hmem => counters_subset (hdistinct.perm h) h.symm hmem⟩

theorem ranks_eq (hdistinct : DistinctKeys samples) (h : samples.Perm samples') :
    (rankedRules samples).map (·.toRuleCounts.rank) =
      (rankedRules samples').map (·.toRuleCounts.rank) := by
  have hrank : ∀ rows : List NoiseRow, rows.map (·.toRuleCounts.rank) =
      (rows.map NoiseRow.counters).map (·.2.1.rank) := by
    intro rows
    rw [List.map_map]
    rfl
  have hperm : ((rankedRules samples).map (·.toRuleCounts.rank)).Perm
      ((rankedRules samples').map (·.toRuleCounts.rank)) := by
    refine (rankedRules_perm.map _).trans (.trans ?_ (rankedRules_perm.map _).symm)
    rw [hrank, hrank]
    exact (counters_perm hdistinct h).map _
  have hsorted : ∀ l : List NoiseSample,
      ((rankedRules l).map (·.toRuleCounts.rank)).Pairwise (· ≥ ·) :=
    fun l => List.pairwise_map.mpr rankedRules_sorted
  exact hperm.eq_of_pairwise (fun _ _ _ _ h h' => le_antisymm h' h) (hsorted _) (hsorted _)

/-- Rows of samples in another order: the same counters for a rule that both list, and the same
ranks from the first row to the last. -/
structure SameCounters (rows rows' : List NoiseRow) : Prop where
  counters : ∀ row ∈ rows, ∀ row' ∈ rows', row.key = row'.key → row.counters = row'.counters
  ranks : rows.map (·.toRuleCounts.rank) = rows'.map (·.toRuleCounts.rank)

theorem sliceList_map {α β : Type} (f : α → β) (limit : ℤ) (l : List α) :
    (sliceList limit l).map f = sliceList limit (l.map f) := by
  unfold sliceList
  split
  · exact List.map_take
  · rw [List.length_map]
    exact List.map_take

theorem aggregateRuleNoise_perm (hdistinct : DistinctKeys samples) (h : samples.Perm samples')
    (limit : ℤ) :
    SameCounters (aggregateRuleNoise samples limit) (aggregateRuleNoise samples' limit) := by
  constructor
  · intro row hrow row' hrow' heq
    obtain ⟨key, hkey⟩ := (aggregateRuleNoise_ranks hdistinct limit).exact row hrow
    obtain ⟨key', hkey'⟩ := (aggregateRuleNoise_ranks (hdistinct.perm h) limit).exact row' hrow'
    rw [hkey.about, hkey'.about, Option.some.injEq] at heq
    subst heq
    exact (hkey.perm h).counters_eq hkey'
  · have hranks := congrArg (sliceList limit) (ranks_eq hdistinct h)
    rw [← sliceList_map, ← sliceList_map] at hranks
    exact hranks

end

end Minsight

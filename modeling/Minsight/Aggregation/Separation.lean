import Minsight.Aggregation.IsoDates
import Minsight.Aggregation.Windows

/-! # What a key tells apart

The key of an alert is the digest of its normalised host, user and category and of its day, joined
with bars. The fields may hold bars themselves, and a host or user may be called like the one that
stands for a missing one.
-/

namespace Minsight

section

variable (rt : Runtime) (config : AggregationConfig)

def Missing (text : Option String) : Prop := rt.lower (strip (text.getD "")) = ""

/-- The host, the user and the category of an alert as its key has them. -/
def keyFields (alert : Alert) : List String :=
  [normalized rt alert.hostName config.unknownHostSentinel,
    normalized rt alert.userName config.unknownUserSentinel,
    rt.lower (strip (orText alert.alertCategory "uncategorized"))]

def keyPayload (alert : Alert) : String :=
  joinText "|" (keyFields rt config alert) ++ "|" ++
    isoformat (utcDay alert.occurredAt * 86400000000)

/-- The dimensions are those of the alert. -/
def Keyed (alert : Alert) (dims : AggregationDimensions) : Prop :=
  normalizeDimensions rt config alert.hostName alert.userName alert.alertCategory
    alert.occurredAt = .ok dims

/-- The digests of the two payloads differ if the payloads do. -/
def DigestsApart (a b : Alert) : Prop :=
  takeText 32 (rt.sha256Hex (keyPayload rt config a)) =
    takeText 32 (rt.sha256Hex (keyPayload rt config b)) →
  keyPayload rt config a = keyPayload rt config b

/-- Two alerts share a key only where they agree on every dimension. -/
structure KeysSeparate (a b : Alert) (da db : AggregationDimensions) : Prop where
  key_eq_iff : da.eventKey = db.eventKey ↔ da.hostNorm = db.hostNorm ∧ da.userNorm = db.userNorm ∧
    da.categoryNorm = db.categoryNorm ∧ da.windowStart = db.windowStart
  host : ¬ (Missing rt a.hostName ↔ Missing rt b.hostName) → da.eventKey ≠ db.eventKey
  user : ¬ (Missing rt a.userName ↔ Missing rt b.userName) → da.eventKey ≠ db.eventKey

/-- The fields hold equally many bars, and the same of them are missing. -/
structure AlikeFields (a b : Alert) : Prop where
  bars : (keyFields rt config a).map (separators '|') = (keyFields rt config b).map (separators '|')
  host : Missing rt a.hostName ↔ Missing rt b.hostName
  user : Missing rt a.userName ↔ Missing rt b.userName

end

/-- A time that `datetime` holds. -/
def IsDatetime (t : Time) : Prop := minTime ≤ t ∧ t ≤ maxTime

instance (t : Time) : Decidable (IsDatetime t) := inferInstanceAs (Decidable (_ ∧ _))

variable {rt : Runtime} {config : AggregationConfig} {a b : Alert}
  {da db : AggregationDimensions}

theorem IsDatetime.utcDay_ge {t : Time} (h : IsDatetime t) : -719468 ≤ utcDay t := by
  have hmin : minTime = -719162 * 86400000000 := by decide
  have hle := h.1
  rw [hmin] at hle
  simp only [utcDay]
  omega

theorem utcDay_mul (day : ℤ) : utcDay (day * 86400000000) = day := by
  simp only [utcDay]
  omega

namespace Keyed

theorem key (h : Keyed rt config a da) :
    da.eventKey = takeText 32 (rt.sha256Hex (keyPayload rt config a)) := by
  rw [(normalizeDimensions_ok.mp h).2]
  simp only [dimensionsIn, keyPayload, keyFields, joinText, String.append_assoc]

theorem fields (h : Keyed rt config a da) :
    keyFields rt config a = [da.hostNorm, da.userNorm, da.categoryNorm] := by
  rw [(normalizeDimensions_ok.mp h).2]
  rfl

theorem windowStart (h : Keyed rt config a da) :
    da.windowStart = utcDay a.occurredAt * 86400000000 := by
  rw [(normalizeDimensions_ok.mp h).2]
  rfl

end Keyed

/-- The payload gives the joined fields and the day back: its last bar stands between them. -/
theorem keyPayload_inj (ha : IsDatetime a.occurredAt) (hb : IsDatetime b.occurredAt) :
    keyPayload rt config a = keyPayload rt config b ↔
      joinText "|" (keyFields rt config a) = joinText "|" (keyFields rt config b) ∧
        utcDay a.occurredAt = utcDay b.occurredAt := by
  constructor
  · intro h
    have hday : ∀ day, separators '|' (isoformat day) = 0 := fun day =>
      separators_isoformat (by decide) (by decide) (by decide) (by decide) (by decide) day
    have hcount := congrArg (separators '|') h
    simp only [keyPayload, separators_append, hday] at hcount
    have hsplit := congrArg String.toList h
    have hbar : "|".toList = ['|'] := rfl
    simp only [keyPayload, String.toList_append, hbar, List.append_assoc,
      List.singleton_append] at hsplit
    rw [append_sep_inj (by simp only [separators] at hcount; omega), String.toList_inj,
      String.toList_inj] at hsplit
    refine ⟨hsplit.1, ?_⟩
    have heq := utcDay_eq_of_isoformat (by rw [utcDay_mul]; exact ha.utcDay_ge)
      (by rw [utcDay_mul]; exact hb.utcDay_ge) hsplit.2
    rwa [utcDay_mul, utcDay_mul] at heq
  · rintro ⟨hfields, hday⟩
    simp only [keyPayload, hfields, hday]

theorem keyFields_inj
    (hbars : (keyFields rt config a).map (separators '|') =
      (keyFields rt config b).map (separators '|'))
    (h : joinText "|" (keyFields rt config a) = joinText "|" (keyFields rt config b)) :
    keyFields rt config a = keyFields rt config b := by
  have hbar : "|" = String.singleton '|' := by decide
  rw [hbar] at h
  exact (joinText_inj hbars).mp h

/--
The keys of two alerts tell their dimensions apart if and only if, where the days and the joined
fields of the alerts are the same, the fields hold equally many bars and the same of them are
missing.
-/
theorem keys_separate_iff (ha : Keyed rt config a da) (hb : Keyed rt config b db)
    (hta : IsDatetime a.occurredAt) (htb : IsDatetime b.occurredAt)
    (hdigests : DigestsApart rt config a b) :
    KeysSeparate rt a b da db ↔
      (utcDay a.occurredAt = utcDay b.occurredAt →
        joinText "|" (keyFields rt config a) = joinText "|" (keyFields rt config b) →
          AlikeFields rt config a b) := by
  have hkey : da.eventKey = db.eventKey ↔
      joinText "|" (keyFields rt config a) = joinText "|" (keyFields rt config b) ∧
        utcDay a.occurredAt = utcDay b.occurredAt := by
    rw [← keyPayload_inj hta htb, ha.key, hb.key]
    constructor
    · exact hdigests
    · intro h
      rw [h]
  have hdims : (da.hostNorm = db.hostNorm ∧ da.userNorm = db.userNorm ∧
      da.categoryNorm = db.categoryNorm ∧ da.windowStart = db.windowStart) ↔
      keyFields rt config a = keyFields rt config b ∧
        utcDay a.occurredAt = utcDay b.occurredAt := by
    have hday : da.windowStart = db.windowStart ↔ utcDay a.occurredAt = utcDay b.occurredAt := by
      rw [ha.windowStart, hb.windowStart]
      exact mul_left_inj' (by decide)
    rw [hday, ha.fields, hb.fields]
    simp only [List.cons.injEq, and_true, and_assoc]
  constructor
  · intro h hday hjoined
    have heq := hkey.mpr ⟨hjoined, hday⟩
    constructor
    · rw [(hdims.mp (h.key_eq_iff.mp heq)).1]
    · exact Classical.byContradiction fun hhost => h.host hhost heq
    · exact Classical.byContradiction fun huser => h.user huser heq
  · intro h
    constructor
    · rw [hdims, hkey]
      constructor
      · rintro ⟨hjoined, hday⟩
        exact ⟨keyFields_inj (h hday hjoined).bars hjoined, hday⟩
      · rintro ⟨hfields, hday⟩
        exact ⟨by rw [hfields], hday⟩
    · intro hhost heq
      obtain ⟨hjoined, hday⟩ := hkey.mp heq
      exact hhost (h hday hjoined).host
    · intro huser heq
      obtain ⟨hjoined, hday⟩ := hkey.mp heq
      exact huser (h hday hjoined).user

/-- An alert of the first day with these fields. -/
def alertOn (hostName userName : Option String) : Alert where
  dataSourceId := 0
  sourceAlertId := "a"
  fingerprint := ""
  occurredAt := 0
  ingestedAt := 0
  hostName
  userName

/-- The hosts `a|b` and `a` share a key where the users are `c` and `b|c`. -/
theorem bars_are_confused :
    ¬ ∀ (rt : Runtime) (config : AggregationConfig) (a b : Alert) (da db : AggregationDimensions),
      Keyed rt config a da → Keyed rt config b db → IsDatetime a.occurredAt →
        IsDatetime b.occurredAt → DigestsApart rt config a b → KeysSeparate rt a b da db := by
  intro h
  have hlaw := h (sampleRuntime .increasing []) {} (alertOn (some "a|b") (some "c"))
    (alertOn (some "a") (some "b|c")) _ _ (normalizeDimensions_ok.mpr ⟨rfl, rfl⟩)
    (normalizeDimensions_ok.mpr ⟨rfl, rfl⟩) (by decide +kernel) (by decide +kernel)
    (fun _ => by decide +kernel)
  exact absurd (hlaw.key_eq_iff.mp (by decide +kernel)).1 (by decide +kernel)

theorem keys_separate_sample :
    KeysSeparate (sampleRuntime .increasing sampleDigests) (alertOn none none)
      (alertOn (some "probe-host") none)
      (dimensionsIn (sampleRuntime .increasing sampleDigests) {} none none none 0)
      (dimensionsIn (sampleRuntime .increasing sampleDigests) {} (some "probe-host") none none 0) := by
  refine (@keys_separate_iff _ {} _ _ _ _ (normalizeDimensions_ok.mpr ⟨rfl, rfl⟩)
    (normalizeDimensions_ok.mpr ⟨rfl, rfl⟩) (by decide +kernel) (by decide +kernel)
    (fun h => absurd h (by decide +kernel))).mpr ?_
  intro _ h
  exact absurd h (by decide +kernel)

end Minsight

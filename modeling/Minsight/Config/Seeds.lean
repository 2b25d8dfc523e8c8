import Minsight.Config.Settings
import Minsight.Eval.Alongside

/-! # Defaults as rows

A row with the default of a setting is read like no row at all, by every part of the program that
reads the setting.
-/

namespace Minsight

open Regression

/-- The first rows are those of the others, and defaults for other keys. -/
def Seeded (rows rows' : SystemConfig) : Prop :=
  ∀ key, rows.lookup key = rows'.lookup key ∨
    rows'.lookup key = none ∧ ∃ value, (key, value) ∈ configSeeds ∧ rows.lookup key = some value

/-- Every part of the program reads the same settings from the rows. -/
structure ReadsAlike (rt : Runtime) (int : String → Option ℤ) (float : String → Option ℚ)
    (rows rows' : SystemConfig) : Prop where
  triage : loadTriageConfig rt int float rows = loadTriageConfig rt int float rows'
  aggregation : loadAggregationConfig rt int rows = loadAggregationConfig rt int rows'
  investigation :
    loadInvestigationConfig rt int float rows = loadInvestigationConfig rt int float rows'
  humanReview : loadHumanReviewConfig rt int rows = loadHumanReviewConfig rt int rows'
  defenseAssets : loadDefenseAssetConfig rt int rows = loadDefenseAssetConfig rt int rows'
  eval : loadEvalConfig rt int rows = loadEvalConfig rt int rows'
  disposition : ∀ mockEnv,
    loadDispositionConfig rt rows mockEnv = loadDispositionConfig rt rows' mockEnv
  toolGateway : loadToolGatewayConfig int rows = loadToolGatewayConfig int rows'
  ints : ∀ x ∈ pollIntervals ++ directInts,
    getConfigInt int rows x.1 x.2 = getConfigInt int rows' x.1 x.2
  bools : ∀ x ∈ directBools, getConfigBool rows x.1 x.2 = getConfigBool rows' x.1 x.2

variable {rt : Runtime} {int : String → Option ℤ} {float : String → Option ℚ}
  {rows rows' : SystemConfig} {key : String}

def SeededAs (key : String) (value : Json) : Prop :=
  ∀ seed ∈ configSeeds, seed.1 = key → seed.2 = value.valued

theorem Seeded.cases (h : Seeded rows rows') {value : Json} (hseeds : SeededAs key value) :
    rows.lookup key = rows'.lookup key ∨
      rows'.lookup key = none ∧ rows.lookup key = some value.valued := by
  refine (h key).imp_right ?_
  rintro ⟨hnone, v, hv, hsome⟩
  obtain rfl : v = value.valued := hseeds _ hv rfl
  exact ⟨hnone, hsome⟩

theorem Seeded.readInt (h : Seeded rows rows') {n : ℤ} (hseeds : SeededAs key (.int n)) :
    getConfigInt int rows key n = getConfigInt int rows' key n := by
  unfold getConfigInt
  rcases h.cases hseeds with heq | ⟨hnone, hsome⟩
  · rw [heq]
  · rw [hnone, hsome]
    rfl

theorem Seeded.readBool (h : Seeded rows rows') {b : Bool} (hseeds : SeededAs key (.bool b)) :
    getConfigBool rows key b = getConfigBool rows' key b := by
  unfold getConfigBool
  rcases h.cases hseeds with heq | ⟨hnone, hsome⟩
  · rw [heq]
  · rw [hnone, hsome]
    rfl

theorem Seeded.readFloat (h : Seeded rows rows') {q : ℚ} (hseeds : SeededAs key (.float q)) :
    getConfigFloat float rows key q = getConfigFloat float rows' key q := by
  unfold getConfigFloat
  rcases h.cases hseeds with heq | ⟨hnone, hsome⟩
  · rw [heq]
  · rw [hnone, hsome]
    rfl

theorem Seeded.readWhole (h : Seeded rows rows') {n : ℕ} [n.AtLeastTwo] (hn : n ≤ 100)
    (hseeds : SeededAs key (.int ofNat(n))) :
    getConfigFloat float rows key ofNat(n) = getConfigFloat float rows' key ofNat(n) := by
  have hnat : (ofNat(n) : ℤ).natAbs ≤ 100 := by
    rw [← Nat.cast_ofNat, Int.natAbs_natCast]
    exact hn
  have hfloat : floatOf float (.int ofNat(n)) = .ok ofNat(n) := by
    rw [floatOf_int float _ hnat, Int.cast_ofNat]
  unfold getConfigFloat
  rcases h.cases hseeds with heq | ⟨hnone, hsome⟩
  · rw [heq]
  · rw [hnone, hsome]
    simp only [Json.valued, List.lookup_cons_self, Option.map_some, Option.getD_some, hfloat]

theorem Seeded.readText (h : Seeded rows rows') (hstr : ∀ t, rt.str (.str t) = t) {t : String}
    (hseeds : SeededAs key (.str t)) :
    getConfigText rt rows key t = getConfigText rt rows' key t := by
  unfold getConfigText
  rcases h.cases hseeds with heq | ⟨hnone, hsome⟩
  · rw [heq]
  · rw [hnone, hsome]
    exact hstr t

theorem Seeded.readUnset (h : Seeded rows rows') (hseeds : SeededAs key .null) :
    unwrapped .null (getConfigValue rows key .null) =
      unwrapped .null (getConfigValue rows' key .null) := by
  unfold getConfigValue
  rcases h.cases hseeds with heq | ⟨hnone, hsome⟩
  · rw [heq]
  · rw [hnone, hsome]
    rfl

theorem Seeded.readValue (h : Seeded rows rows') {value : Json} (hseeds : SeededAs key value) :
    unwrapped value (getConfigValue rows key (.obj [("value", value)])) =
      unwrapped value (getConfigValue rows' key (.obj [("value", value)])) := by
  unfold getConfigValue
  rcases h.cases hseeds with heq | ⟨hnone, hsome⟩
  · rw [heq]
  · rw [hnone, hsome]
    rfl

theorem map_str (hstr : ∀ t, rt.str (.str t) = t) (ts : List String) :
    (ts.map Json.str).map rt.str = ts := by
  rw [List.map_map]
  exact List.map_id'' hstr ts

theorem Seeded.readTexts (h : Seeded rows rows') (hstr : ∀ t, rt.str (.str t) = t)
    {ts : List String} (hseeds : SeededAs key (.arr (ts.map .str))) :
    getConfigTexts rt rows key ts = getConfigTexts rt rows' key ts := by
  unfold getConfigTexts
  rcases h.cases hseeds with heq | ⟨hnone, hsome⟩
  · rw [heq]
  · rw [hnone, hsome]
    exact congrArg Except.ok (map_str hstr ts)

theorem forall_configSeeds {P : String × Json → Prop} : (∀ seed ∈ configSeeds, P seed) ↔
    (∀ d ∈ triageDefaults, P (d.key, d.value)) ∧
    (∀ d ∈ aggregationDefaults, P (d.key, d.value)) ∧
    (∀ d ∈ ingestionDefaults, P (d.key, d.value)) ∧
    (∀ d ∈ investigationDefaults, P (d.key, d.value)) ∧
    (∀ d ∈ humanReviewDefaults, P (d.key, d.value)) ∧
    (∀ d ∈ defenseAssetDefaults, P (d.key, d.value)) ∧
    (∀ d ∈ evalDefaults, P (d.key, d.value)) ∧ ∀ seed ∈ migrationSeeds, P seed := by
  have hlists : (lifespanDefaults true).flatten = triageDefaults ++ (aggregationDefaults ++
      (ingestionDefaults ++ (investigationDefaults ++ (humanReviewDefaults ++
        (defenseAssetDefaults ++ evalDefaults))))) := rfl
  rw [configSeeds, List.forall_mem_append, List.forall_mem_map, hlists]
  simp only [List.forall_mem_append, and_assoc]

theorem seededAs_iff {value : Json} : SeededAs key value ↔
    (∀ d ∈ triageDefaults, d.key = key → d.value = value.valued) ∧
    (∀ d ∈ aggregationDefaults, d.key = key → d.value = value.valued) ∧
    (∀ d ∈ ingestionDefaults, d.key = key → d.value = value.valued) ∧
    (∀ d ∈ investigationDefaults, d.key = key → d.value = value.valued) ∧
    (∀ d ∈ humanReviewDefaults, d.key = key → d.value = value.valued) ∧
    (∀ d ∈ defenseAssetDefaults, d.key = key → d.value = value.valued) ∧
    (∀ d ∈ evalDefaults, d.key = key → d.value = value.valued) ∧
    ∀ seed ∈ migrationSeeds, seed.1 = key → seed.2 = value.valued :=
  forall_configSeeds

theorem mapM_weights {weights : List (String × ℚ)} {value : ℚ → Json}
    (hvalue : ∀ x ∈ weights, floatOf float (value x.2) = .ok x.2) :
    ((weights.map fun (k, q) => (k, value q)).mapM fun (k, v) =>
      (floatOf float v).map fun q => (k, q)) = .ok weights := by
  induction weights with
  | nil => rfl
  | cons x weights ih =>
    obtain ⟨hx, hweights⟩ := List.forall_mem_cons.mp hvalue
    rw [List.map_cons, List.mapM_cons, ih hweights]
    dsimp only
    rw [hx]
    rfl

theorem getCategoryRisk_weightsRow {value : ℚ → Json}
    (hlookup : rows.lookup "triage.category_risk" = some (weightsRow value))
    (hvalue : ∀ x ∈ ({} : TriageConfig).categoryRisk, floatOf float (value x.2) = .ok x.2) :
    getCategoryRisk float rows = .ok ({} : TriageConfig).categoryRisk := by
  have hkeys : (({} : TriageConfig).categoryRisk.map Prod.fst).Nodup := by
    simp [List.nodup_cons]
  unfold getCategoryRisk getConfigValue
  rw [hlookup]
  simp only [weightsRow, Option.getD_some, List.lookup_cons_self, mapM_weights hvalue]
  have hsame := Overlay.overlay_of_subset hkeys (List.Subset.refl _)
  change Except.ok (Overlay.overlay Prod.fst _ _) = _
  rw [hsame]

theorem Seeded.readCategoryRisk (h : Seeded rows rows') :
    getCategoryRisk float rows = getCategoryRisk float rows' := by
  have hseeds : ∀ seed ∈ configSeeds, seed.1 = "triage.category_risk" →
      seed.2 = weightsRow .float ∨ seed.2 = weightsRow fun q => .int q.num := by
    refine forall_configSeeds.mpr ?_
    simp only [List.forall_mem_cons, List.not_mem_nil, IsEmpty.forall_iff, implies_true,
      String.reduceEq, and_self, true_or, or_true]
  have hwhole : ∀ x ∈ ({} : TriageConfig).categoryRisk,
      floatOf float (.int x.2.num) = .ok x.2 := by
    have hsmall : ∀ x ∈ ({} : TriageConfig).categoryRisk,
        x.2.num.natAbs ≤ 100 ∧ (x.2.num : ℚ) = x.2 := by
      decide +kernel
    intro x hx
    obtain ⟨hle, heq⟩ := hsmall x hx
    rw [floatOf_int float _ hle, heq]
  rcases h "triage.category_risk" with heq | ⟨hnone, v, hv, hsome⟩
  · unfold getCategoryRisk getConfigValue
    rw [heq]
  · have hdefault : getCategoryRisk float rows' = .ok ({} : TriageConfig).categoryRisk := by
      unfold getCategoryRisk getConfigValue
      rw [hnone]
      rfl
    rw [hdefault]
    obtain rfl | rfl : v = _ ∨ v = _ := hseeds _ hv rfl
    · exact getCategoryRisk_weightsRow hsome fun _ _ => rfl
    · exact getCategoryRisk_weightsRow hsome hwhole

theorem loadDispositionConfig_eq (mockEnv : Option String) :
    loadDispositionConfig rt rows mockEnv =
      (getConfigTexts rt rows "disposition.allowed_action_types"
        ["block_ip", "isolate_host", "disable_user"]).map fun allowed =>
        { simulationEnabled := getConfigBool rows "disposition.simulation_enabled" false
          requireApproval := getConfigBool rows "disposition.require_approval" true
          allowedActionTypes := allowed
          mockMode := not (["0", "false", "no"].contains (rt.lower (mockEnv.getD "true"))) } := by
  unfold loadDispositionConfig getConfigTexts
  cases rows.lookup "disposition.allowed_action_types" with
  | none => rfl
  | some value =>
    cases value with
    | obj fields =>
      dsimp only
      cases fields.lookup "value" with
      | none => rfl
      | some value => rfl
    | _ => rfl

theorem Seeded.readTriage (h : Seeded rows rows') (hstr : ∀ t, rt.str (.str t) = t) :
    loadTriageConfig rt int float rows = loadTriageConfig rt int float rows' := by
  unfold loadTriageConfig
  simp (disch := simp only [seededAs_iff, List.forall_mem_cons, List.not_mem_nil,
    IsEmpty.forall_iff, implies_true, String.reduceEq, and_self, List.map_cons,
    List.map_nil, Nat.reduceLeDiff]) only [h.readCategoryRisk, h.readTexts hstr, h.readInt,
    h.readFloat, h.readWhole, h.readBool]

theorem Seeded.readAggregation (h : Seeded rows rows') (hstr : ∀ t, rt.str (.str t) = t) :
    loadAggregationConfig rt int rows = loadAggregationConfig rt int rows' := by
  unfold loadAggregationConfig
  simp (disch := simp only [seededAs_iff, List.forall_mem_cons, List.not_mem_nil,
    IsEmpty.forall_iff, implies_true, String.reduceEq, and_self]) only [h.readText hstr, h.readInt]

theorem Seeded.readInvestigation (h : Seeded rows rows') (hstr : ∀ t, rt.str (.str t) = t) :
    loadInvestigationConfig rt int float rows = loadInvestigationConfig rt int float rows' := by
  unfold loadInvestigationConfig
  simp (disch := simp only [seededAs_iff, List.forall_mem_cons, List.not_mem_nil,
    IsEmpty.forall_iff, implies_true, String.reduceEq, and_self]) only [h.readText hstr, h.readInt,
    h.readFloat, h.readBool]

theorem Seeded.readHumanReview (h : Seeded rows rows') (hstr : ∀ t, rt.str (.str t) = t) :
    loadHumanReviewConfig rt int rows = loadHumanReviewConfig rt int rows' := by
  unfold loadHumanReviewConfig
  simp (disch := simp only [seededAs_iff, List.forall_mem_cons, List.not_mem_nil,
    IsEmpty.forall_iff, implies_true, String.reduceEq, and_self]) only [h.readText hstr, h.readInt, h.readBool]

theorem Seeded.readDefenseAssets (h : Seeded rows rows') (hstr : ∀ t, rt.str (.str t) = t) :
    loadDefenseAssetConfig rt int rows = loadDefenseAssetConfig rt int rows' := by
  unfold loadDefenseAssetConfig
  simp (disch := simp only [seededAs_iff, List.forall_mem_cons, List.not_mem_nil,
    IsEmpty.forall_iff, implies_true, String.reduceEq, and_self]) only [h.readText hstr, h.readInt, h.readBool]

theorem Seeded.readEval (h : Seeded rows rows') :
    loadEvalConfig rt int rows = loadEvalConfig rt int rows' := by
  unfold loadEvalConfig
  simp (disch := simp only [seededAs_iff, List.forall_mem_cons, List.not_mem_nil,
    IsEmpty.forall_iff, implies_true, String.reduceEq, and_self]) only [h.readUnset, h.readValue, h.readInt, h.readBool]

theorem Seeded.readToolGateway (h : Seeded rows rows') :
    loadToolGatewayConfig int rows = loadToolGatewayConfig int rows' := by
  unfold loadToolGatewayConfig
  simp (disch := simp only [seededAs_iff, List.forall_mem_cons, List.not_mem_nil,
    IsEmpty.forall_iff, implies_true, String.reduceEq, and_self]) only [h.readInt, h.readBool]

theorem Seeded.readDisposition (h : Seeded rows rows') (hstr : ∀ t, rt.str (.str t) = t)
    (mockEnv : Option String) :
    loadDispositionConfig rt rows mockEnv = loadDispositionConfig rt rows' mockEnv := by
  rw [loadDispositionConfig_eq, loadDispositionConfig_eq]
  simp (disch := simp only [seededAs_iff, List.forall_mem_cons, List.not_mem_nil,
    IsEmpty.forall_iff, implies_true, String.reduceEq, and_self,
    List.map_cons, List.map_nil]) only [h.readTexts hstr, h.readBool]

theorem Seeded.readInts (h : Seeded rows rows') : ∀ x ∈ pollIntervals ++ directInts,
    getConfigInt int rows x.1 x.2 = getConfigInt int rows' x.1 x.2 := by
  simp (disch := simp only [seededAs_iff, List.forall_mem_cons, List.not_mem_nil,
    IsEmpty.forall_iff, implies_true, String.reduceEq, and_self]) only [pollIntervals, directInts,
    List.cons_append, List.nil_append, List.forall_mem_cons, List.not_mem_nil, IsEmpty.forall_iff,
    implies_true, and_self, h.readInt]

theorem Seeded.readBools (h : Seeded rows rows') : ∀ x ∈ directBools,
    getConfigBool rows x.1 x.2 = getConfigBool rows' x.1 x.2 := by
  simp (disch := simp only [seededAs_iff, List.forall_mem_cons, List.not_mem_nil,
    IsEmpty.forall_iff, implies_true, String.reduceEq, and_self]) only [directBools,
    List.forall_mem_cons, List.not_mem_nil, IsEmpty.forall_iff, implies_true, and_self, h.readBool]

theorem Seeded.readsAlike (h : Seeded rows rows') (hstr : ∀ t, rt.str (.str t) = t) :
    ReadsAlike rt int float rows rows' where
  triage := h.readTriage hstr
  aggregation := h.readAggregation hstr
  investigation := h.readInvestigation hstr
  humanReview := h.readHumanReview hstr
  defenseAssets := h.readDefenseAssets hstr
  eval := h.readEval
  disposition := h.readDisposition hstr
  toolGateway := h.readToolGateway
  ints := h.readInts
  bools := h.readBools

end Minsight

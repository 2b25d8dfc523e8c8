import Minsight.Assets.Settlement

/-! # Suggested assets from submission to settlement

What the model suggests with its conclusion crosses the payload, the stored conclusion and the
builders. The payload has no field for a rule candidate, so none survives.
-/

namespace Minsight

open Tx Session

/-- A suggestion of a kind in the arguments of `submit_conclusion`, when it is an object. -/
def submittedAsset (params : Json) (kind : String) : Option Json := do
  let suggested ← params.get? "suggested_assets"
  let asset ← suggested.get? kind
  asset.asObj?

section

variable {rt : Runtime} {params : Json} {payload : ConclusionPayload} {i : ℕ}
  {closure : Option ClosureResult}

theorem optionalDict_asObj {value : Option Json} {field : Option Json}
    (h : optionalDict value = some field) : (field.getD .null).asObj? = value.bind Json.asObj? := by
  unfold optionalDict at h
  split at h
  · obtain rfl := Option.some.inj h
    rfl
  · obtain rfl := Option.some.inj h
    rfl
  · obtain rfl := Option.some.inj h
    rfl
  · cases h

theorem submittedAsset_eq (kind : String) : submittedAsset params kind =
    (Json.get? (match params.get? "suggested_assets" with
      | some (.obj fields) => Json.obj fields
      | _ => .obj []) kind).bind Json.asObj? := by
  unfold submittedAsset
  rcases params.get? "suggested_assets" with _ | ⟨_ | _ | _ | _ | _ | _ | fields⟩ <;> rfl

structure Stores (params : Json) (conclusion : InvestigationConclusion) : Prop where
  whitelist : suggestion conclusion "whitelist_candidate" =
    submittedAsset params "whitelist_candidate"
  profile : suggestion conclusion "profile_update" = submittedAsset params "profile_update"
  /-- There is no field for it. -/
  rule : suggestion conclusion "rule_candidate" = none

theorem stores_of_parse (h : parseConclusion rt params = some payload) :
    Stores params (conclusionRow i payload closure) := by
  obtain ⟨judgmentCase, -, h⟩ := Option.bind_eq_some_iff.mp h
  obtain ⟨whitelistCandidate, hwhitelist, h⟩ := Option.bind_eq_some_iff.mp h
  obtain ⟨profileUpdate, hprofile, h⟩ := Option.bind_eq_some_iff.mp h
  obtain ⟨fields, -, h⟩ := Option.bind_eq_some_iff.mp h
  split at h
  · cases h
  · split at h
    · cases h
    · obtain rfl := Option.some.inj h
      constructor
      · rw [submittedAsset_eq]
        exact optionalDict_asObj hwhitelist
      · rw [submittedAsset_eq]
        exact optionalDict_asObj hprofile
      · rfl

end

def fitsText : Option Json → Bool
  | none | some .null | some (.str _) => true
  | _ => false

/-- The rows of the candidates fit their columns. -/
def Db.fitsColumns (db : Db) : Bool :=
  db.whitelistCandidates.all (fun c => fitsText c.reason) &&
    db.ruleCandidates.all (fun c => fitsText c.reason) &&
    db.entityProfiles.all fun p => p.entityKey.length ≤ 256

def storeRows : Session Unit := do
  let fits ← Session.query Db.fitsColumns
  if fits then pure ()
  else
    Tx.write fun w => { w with failed := true }
    Tx.raise .statement

/-- `_settle_one`, and the flush of what it added. -/
def settleAndStore (rt : Runtime) (config : DefenseAssetConfig) (env : SettleEnv) (tie : ℕ → ℕ)
    (t : SettleTarget) : Session Unit := do
  settleOne rt config env tie t
  storeRows

section

variable (rt : Runtime) (config : DefenseAssetConfig) (t : SettleTarget) (db : Db)

def addedCandidates : List WhitelistCandidate :=
  match whitelistPattern rt config t.conclusion with
  | none => []
  | some (wl, pattern, phash) =>
    if pendingCandidates db phash = 0 then [whitelistCandidateOf t.investigationId wl pattern phash]
    else []

/-- The profile of the entity that a suggestion is about, and the profiles with it. -/
def profileFor (entityType : EntityType) (key : String) : ℕ × Rows EntityProfile :=
  match loadProfile db entityType key with
  | some (pid, _) => (pid, db.entityProfiles)
  | none => (db.entityProfiles.length, db.entityProfiles ++ [{ entityType, entityKey := key }])

structure Adds (db' : Db) : Prop where
  whitelist : db'.whitelistCandidates = db.whitelistCandidates ++ addedCandidates rt config t db
  profiles : match profileTarget rt t.conclusion with
    | none => db'.profileSuggestions = db.profileSuggestions ∧
        db'.entityProfiles = db.entityProfiles
    | some (pu, entityType, key) =>
      db'.profileSuggestions = db.profileSuggestions ++ [{
          investigationId := t.investigationId
          entityProfileId := (profileFor db entityType key).1
          suggestedChanges := pu }] ∧
        db'.entityProfiles = (profileFor db entityType key).2
  rules : db'.ruleCandidates = db.ruleCandidates ++
    (createRuleCandidate t.investigationId t.conclusion).toList

/-- The pattern of the whitelist candidate is pending at most once. -/
def PendingOnce : Prop :=
  ∀ wl pattern phash, whitelistPattern rt config t.conclusion = some (wl, pattern, phash) →
    pendingCandidates db phash < 2

end

section

variable {rt : Runtime} {config : DefenseAssetConfig} {embedding : Option (List ℚ)} {tie : ℕ → ℕ}
  {t : SettleTarget} {w : World}

theorem exec_settleStep_none (hopen : w.failed = false) :
    exec (settleStep none) w = (.ok (), w) := by
  simp [settleStep, hopen]

theorem exec_addWhitelistCandidate (hopen : w.failed = false)
    (hpending : PendingOnce rt config t w.db) :
    exec (addWhitelistCandidate rt config { embedding } t) w = (.ok (), { w with db := { w.db with
      whitelistCandidates := w.db.whitelistCandidates ++ addedCandidates rt config t w.db } }) := by
  unfold addWhitelistCandidate addedCandidates
  rcases hpattern : whitelistPattern rt config t.conclusion with _ | ⟨wl, pattern, phash⟩
  · simp
  · have hcount : pendingCandidates w.db phash < 2 := hpending wl pattern phash hpattern
    dsimp only
    rw [exec_bind_of_ok (exec_settleStep_none hopen), exec_query_bind]
    rcases hn : pendingCandidates w.db phash with _ | _ | n
    · rw [pendingCandidates] at hn
      simp [hn]
    · rw [pendingCandidates] at hn
      simp [hn]
    · omega

theorem addWhitelistCandidate_raises {wl pattern : Json} {phash : String}
    (hopen : w.failed = false)
    (hpattern : whitelistPattern rt config t.conclusion = some (wl, pattern, phash))
    (hcount : 2 ≤ pendingCandidates w.db phash) :
    exec (addWhitelistCandidate rt config { embedding } t) w = (.error .multipleResults, w) := by
  simp only [addWhitelistCandidate, hpattern]
  rw [exec_bind_of_ok (exec_settleStep_none hopen), exec_query_bind]
  rcases hn : pendingCandidates w.db phash with _ | _ | n
  · omega
  · omega
  · rw [pendingCandidates] at hn
    rw [hn]
    rfl

theorem exec_addProfileSuggestion (hopen : w.failed = false) :
    ∃ w', exec (addProfileSuggestion rt { embedding } t) w = (.ok (), w') ∧ w'.failed = false ∧
      w'.db.whitelistCandidates = w.db.whitelistCandidates ∧
      w'.db.ruleCandidates = w.db.ruleCandidates ∧
      match profileTarget rt t.conclusion with
      | none => w'.db.profileSuggestions = w.db.profileSuggestions ∧
          w'.db.entityProfiles = w.db.entityProfiles
      | some (pu, entityType, key) =>
        w'.db.profileSuggestions = w.db.profileSuggestions ++ [{
            investigationId := t.investigationId
            entityProfileId := (profileFor w.db entityType key).1
            suggestedChanges := pu }] ∧
          w'.db.entityProfiles = (profileFor w.db entityType key).2 := by
  unfold addProfileSuggestion
  rcases profileTarget rt t.conclusion with _ | ⟨pu, entityType, key⟩
  · exact ⟨w, rfl, hopen, rfl, rfl, rfl, rfl⟩
  · dsimp only
    rw [exec_bind_of_ok (exec_settleStep_none hopen)]
    refine ⟨_, rfl, hopen, ?_⟩
    dsimp only [profileFor]
    cases loadProfile w.db entityType key with
    | none => exact ⟨rfl, rfl, rfl, rfl⟩
    | some found => exact ⟨rfl, rfl, rfl, rfl⟩

def candidateTables (db : Db) : Rows WhitelistCandidate × Rows ProfileUpdateSuggestion ×
    Rows EntityProfile × Rows RuleCandidate :=
  (db.whitelistCandidates, db.profileSuggestions, db.entityProfiles, db.ruleCandidates)

theorem exec_closeSettled (hopen : w.failed = false) :
    ∃ w', exec (closeSettled config { embedding } t) w = (.ok (), w') ∧ w'.failed = false ∧
      candidateTables w'.db = candidateTables w.db := by
  unfold closeSettled
  split
  · split
    · rw [exec_bind_of_ok (exec_settleStep_none hopen), exec_query_bind]
      split
      · exact ⟨_, rfl, hopen, rfl⟩
      · exact ⟨_, rfl, hopen, rfl⟩
    · exact ⟨_, rfl, hopen, rfl⟩
  · exact ⟨_, rfl, hopen, rfl⟩

/-- Settling a target adds its candidates, if the pattern is pending at most once. -/
theorem exec_settleOne (hopen : w.failed = false) (hpending : PendingOnce rt config t w.db) :
    ∃ w', exec (settleOne rt config { embedding } tie t) w = (.ok (), w') ∧
      Adds rt config t w.db w'.db := by
  let case := embedCase config { embedding } (buildJudgmentCase rt tie w.db t.investigationId
    t.eventId t.event t.conclusion)
  let w₀ : World := { w with db := { w.db with judgmentCases := w.db.judgmentCases ++ [case] } }
  have hwhitelist₀ := @exec_addWhitelistCandidate rt config embedding t w₀ hopen hpending
  obtain ⟨w₁, hprofile, hopen₁, hwhitelist, hrules, hprofiles⟩ := @exec_addProfileSuggestion rt
    embedding t { w₀ with db := { w₀.db with
      whitelistCandidates := w₀.db.whitelistCandidates ++ addedCandidates rt config t w₀.db } } hopen
  rw [settleOne, exec_bind_of_ok (exec_settleStep_none hopen), exec_query_bind, exec_modify_bind,
    exec_bind_of_ok hwhitelist₀]
  rw [exec_bind_of_ok hprofile, addRuleCandidate, exec_modify_bind]
  obtain ⟨w', hclose, -, htables⟩ := @exec_closeSettled config embedding t { w₁ with
    db := { w₁.db with ruleCandidates := w₁.db.ruleCandidates ++
      (createRuleCandidate t.investigationId t.conclusion).toList } } hopen₁
  obtain ⟨htwhitelist, htsuggestions, htprofiles, htrules⟩ :
      w'.db.whitelistCandidates = w₁.db.whitelistCandidates ∧
        w'.db.profileSuggestions = w₁.db.profileSuggestions ∧
        w'.db.entityProfiles = w₁.db.entityProfiles ∧
        w'.db.ruleCandidates = w₁.db.ruleCandidates ++
          (createRuleCandidate t.investigationId t.conclusion).toList := by
    simpa [candidateTables] using htables
  refine ⟨w', hclose, ?_, ?_, ?_⟩
  · rw [htwhitelist, hwhitelist]
    rfl
  · rw [htsuggestions, htprofiles]
    exact hprofiles
  · rw [htrules, hrules]

theorem settleOne_raises (hopen : w.failed = false) (hpending : ¬ PendingOnce rt config t w.db) :
    ∃ e w', exec (settleOne rt config { embedding } tie t) w = (.error e, w') := by
  simp only [PendingOnce, not_forall, not_lt] at hpending
  obtain ⟨wl, pattern, phash, hpattern, hcount⟩ := hpending
  rw [settleOne, exec_bind_of_ok (exec_settleStep_none hopen), exec_query_bind, exec_modify_bind]
  refine ⟨_, _, exec_bind_of_error (addWhitelistCandidate_raises ?_ hpattern ?_)⟩
  · exact hopen
  · exact hcount

end

section

variable (rt : Runtime) (config : DefenseAssetConfig) (params : Json)
  (verdict : InvestigationVerdict) (i : ℕ) (db : Db)

/-- The submission asks for a whitelist candidate with this pattern, and may have one. -/
def AsksWhitelist (wl pattern : Json) : Prop :=
  submittedAsset params "whitelist_candidate" = some wl ∧ extractMatchPattern wl = some pattern ∧
    (config.createWhitelistOnFpOnly = true → verdict = .likelyFalsePositive)

def AsksProfile (pu : Json) (entityType : EntityType) (key : String) : Prop :=
  submittedAsset params "profile_update" = some pu ∧
    (∃ value, pu.get? "entity_key" = some value ∧ value.truthy = true ∧ rt.str value = key) ∧
    entityType = (EntityType.ofValue
      (rt.str ((pu.get? "entity_type").getD (.str "host")))).getD .host

/-- Every suggestion has its row, unless its pattern is pending already. -/
structure SuggestionsCreated (db' : Db) : Prop where
  whitelist : ∀ wl pattern, AsksWhitelist config params verdict wl pattern →
    pendingCandidates db (patternHash rt pattern) = 0 →
    db'.whitelistCandidates = db.whitelistCandidates ++
      [whitelistCandidateOf i wl pattern (patternHash rt pattern)]
  profile : ∀ pu entityType key, AsksProfile rt params pu entityType key →
    ∃ pid profile, db'.profileSuggestions = db.profileSuggestions ++ [{
        investigationId := i, entityProfileId := pid, suggestedChanges := pu }] ∧
      db'.entityProfiles[pid]? = some profile ∧ profile.entityType = entityType ∧
      profile.entityKey = key
  rule : ∀ rc, submittedAsset params "rule_candidate" = some rc →
    db'.ruleCandidates = db.ruleCandidates ++ [{
      investigationId := i, ruleDraft := rc, reason := rc.get? "reason" }]

/-- The suggestions can be stored, and none of them is a rule candidate. -/
structure SuggestionsFit : Prop where
  noRule : submittedAsset params "rule_candidate" = none
  pending : ∀ wl pattern, AsksWhitelist config params verdict wl pattern →
    pendingCandidates db (patternHash rt pattern) < 2
  reason : ∀ wl pattern, AsksWhitelist config params verdict wl pattern →
    pendingCandidates db (patternHash rt pattern) = 0 → fitsText (wl.get? "reason") = true
  key : ∀ pu entityType key, AsksProfile rt params pu entityType key →
    loadProfile db entityType key = none → key.length ≤ 256

end

section

variable {rt : Runtime} {config : DefenseAssetConfig} {params : Json} {payload : ConclusionPayload}
  {closure : Option ClosureResult} {embedding : Option (List ℚ)} {tie : ℕ → ℕ}
  {t : SettleTarget} {db db' : Db} {w : World}

theorem exec_storeRows (h : w.db.fitsColumns = true) : exec storeRows w = (.ok (), w) := by
  rw [storeRows, exec_query_bind, if_pos h]
  rfl

theorem fitsColumns_of_stored {w' : World} (h : exec storeRows w = (.ok (), w')) :
    w.db.fitsColumns = true ∧ w' = w := by
  rw [storeRows, exec_query_bind] at h
  split at h
  · rename_i hfits
    exact ⟨hfits, (congrArg Prod.snd h).symm⟩
  · cases congrArg Prod.fst h

theorem whitelistPattern_iff (hstores : Stores params t.conclusion) {wl pattern : Json}
    {phash : String} : whitelistPattern rt config t.conclusion = some (wl, pattern, phash) ↔
      AsksWhitelist config params t.conclusion.verdict wl pattern ∧
        phash = patternHash rt pattern := by
  unfold whitelistPattern AsksWhitelist
  rw [hstores.whitelist]
  split
  · rename_i hverdict
    simp only [Bool.and_eq_true, decide_eq_true_eq] at hverdict
    simp only [reduceCtorEq, false_iff, not_and]
    rintro ⟨-, -, h⟩ -
    exact hverdict.2 (h hverdict.1)
  · rename_i hverdict
    simp only [Bool.and_eq_true, decide_eq_true_eq, not_and, not_not] at hverdict
    simp only [Option.bind_eq_bind, Option.bind_eq_some_iff, Option.some.injEq, Prod.mk.injEq]
    constructor
    · rintro ⟨wl', hwl, pattern', hpattern, rfl, rfl, rfl⟩
      exact ⟨⟨hwl, hpattern, hverdict⟩, rfl⟩
    · rintro ⟨⟨hwl, hpattern, -⟩, rfl⟩
      exact ⟨wl, hwl, pattern, hpattern, rfl, rfl, rfl⟩

theorem profileTarget_iff (hstores : Stores params t.conclusion) {pu : Json}
    {entityType : EntityType} {key : String} :
    profileTarget rt t.conclusion = some (pu, entityType, key) ↔
      AsksProfile rt params pu entityType key := by
  unfold profileTarget AsksProfile
  rw [hstores.profile]
  simp only [Option.bind_eq_bind, Option.bind_eq_some_iff, Option.filter_eq_some_iff,
    Option.some.injEq, Prod.mk.injEq]
  constructor
  · rintro ⟨pu', hpu, value, ⟨hvalue, htruthy⟩, rfl, rfl, rfl⟩
    exact ⟨hpu, ⟨value, hvalue, htruthy, rfl⟩, rfl⟩
  · rintro ⟨hpu, ⟨value, hvalue, htruthy, rfl⟩, rfl⟩
    exact ⟨pu, hpu, value, ⟨hvalue, htruthy⟩, rfl, rfl, rfl⟩

theorem createRuleCandidate_none (hstores : Stores params t.conclusion) :
    createRuleCandidate t.investigationId t.conclusion = none := by
  rw [createRuleCandidate, hstores.rule]
  rfl

theorem pendingOnce_iff (hstores : Stores params t.conclusion) :
    PendingOnce rt config t db ↔ ∀ wl pattern,
      AsksWhitelist config params t.conclusion.verdict wl pattern →
        pendingCandidates db (patternHash rt pattern) < 2 := by
  simp only [PendingOnce, whitelistPattern_iff hstores]
  constructor
  · intro h wl pattern hasks
    exact h wl pattern _ ⟨hasks, rfl⟩
  · rintro h wl pattern phash ⟨hasks, rfl⟩
    exact h wl pattern hasks

theorem fitsColumns_iff : db.fitsColumns = true ↔
    (∀ c ∈ db.whitelistCandidates, fitsText c.reason = true) ∧
      (∀ c ∈ db.ruleCandidates, fitsText c.reason = true) ∧
      ∀ p ∈ db.entityProfiles, p.entityKey.length ≤ 256 := by
  simp only [Db.fitsColumns, Bool.and_eq_true, List.all_eq_true, decide_eq_true_eq, and_assoc]

theorem mem_addedCandidates {c : WhitelistCandidate} (hstores : Stores params t.conclusion) :
    c ∈ addedCandidates rt config t db ↔ ∃ wl pattern,
      AsksWhitelist config params t.conclusion.verdict wl pattern ∧
        pendingCandidates db (patternHash rt pattern) = 0 ∧
        c = whitelistCandidateOf t.investigationId wl pattern (patternHash rt pattern) := by
  unfold addedCandidates
  rcases hpattern : whitelistPattern rt config t.conclusion with _ | ⟨wl, pattern, phash⟩
  · simp only [List.not_mem_nil, false_iff, not_exists, not_and]
    intro wl pattern hasks
    rw [(whitelistPattern_iff hstores).mpr ⟨hasks, rfl⟩] at hpattern
    cases hpattern
  · obtain ⟨hasks, rfl⟩ := (whitelistPattern_iff hstores).mp hpattern
    dsimp only
    constructor
    · intro hc
      split at hc
      · rename_i hzero
        exact ⟨wl, pattern, hasks, hzero, List.mem_singleton.mp hc⟩
      · cases hc
    · rintro ⟨wl', pattern', hasks', hzero, rfl⟩
      have hsame := hpattern.symm.trans ((whitelistPattern_iff hstores).mpr ⟨hasks', rfl⟩)
      simp only [Option.some.injEq, Prod.mk.injEq] at hsame
      obtain ⟨rfl, rfl, -⟩ := hsame
      rw [if_pos hzero]
      exact List.mem_singleton_self _

theorem Adds.profile (hadds : Adds rt config t db db') (hstores : Stores params t.conclusion)
    {pu : Json} {entityType : EntityType} {key : String}
    (hasks : AsksProfile rt params pu entityType key) :
    db'.profileSuggestions = db.profileSuggestions ++ [{
        investigationId := t.investigationId
        entityProfileId := (profileFor db entityType key).1
        suggestedChanges := pu }] ∧
      db'.entityProfiles = (profileFor db entityType key).2 := by
  have hprofiles := hadds.profiles
  rw [(profileTarget_iff hstores).mpr hasks] at hprofiles
  exact hprofiles

theorem Adds.mem_profiles (hadds : Adds rt config t db db') (hstores : Stores params t.conclusion)
    {p : EntityProfile} : p ∈ db'.entityProfiles ↔ p ∈ db.entityProfiles ∨
      ∃ pu entityType key, AsksProfile rt params pu entityType key ∧
        loadProfile db entityType key = none ∧ p = { entityType, entityKey := key } := by
  rcases htarget : profileTarget rt t.conclusion with _ | ⟨pu, entityType, key⟩
  · have hprofiles := hadds.profiles
    rw [htarget] at hprofiles
    rw [hprofiles.2]
    refine ⟨.inl, fun h => h.resolve_right ?_⟩
    rintro ⟨pu, entityType, key, hasks, -⟩
    rw [(profileTarget_iff hstores).mpr hasks] at htarget
    cases htarget
  · have hasks := (profileTarget_iff hstores).mp htarget
    rw [(hadds.profile hstores hasks).2, profileFor]
    constructor
    · intro hp
      split at hp
      · exact .inl hp
      · rename_i hnone
        rcases List.mem_append.mp hp with hp | hp
        · exact .inl hp
        · exact .inr ⟨pu, entityType, key, hasks, hnone, List.mem_singleton.mp hp⟩
    · rintro (hp | ⟨pu', entityType', key', hasks', hnone, rfl⟩)
      · split
        · exact hp
        · exact List.mem_append_left _ hp
      · have hsame := htarget.symm.trans ((profileTarget_iff hstores).mpr hasks')
        simp only [Option.some.injEq, Prod.mk.injEq] at hsame
        obtain ⟨-, rfl, rfl⟩ := hsame
        rw [hnone]
        exact List.mem_append_right _ (List.mem_singleton_self _)

/-- The rows that settling adds fit their columns exactly if the reason and the key do. -/
theorem Adds.fitsColumns_iff (hadds : Adds rt config t db db')
    (hstores : Stores params t.conclusion) (hcolumns : db.fitsColumns = true) :
    db'.fitsColumns = true ↔
      (∀ wl pattern, AsksWhitelist config params t.conclusion.verdict wl pattern →
        pendingCandidates db (patternHash rt pattern) = 0 → fitsText (wl.get? "reason") = true) ∧
      ∀ pu entityType key, AsksProfile rt params pu entityType key →
        loadProfile db entityType key = none → key.length ≤ 256 := by
  obtain ⟨hwhitelist, hrules, hprofiles⟩ := Minsight.fitsColumns_iff.mp hcolumns
  rw [Minsight.fitsColumns_iff]
  constructor
  · rintro ⟨hwhitelist', -, hprofiles'⟩
    constructor
    · intro wl pattern hasks hzero
      refine hwhitelist' (whitelistCandidateOf t.investigationId wl pattern
        (patternHash rt pattern)) ?_
      rw [hadds.whitelist]
      exact List.mem_append_right _
        ((mem_addedCandidates hstores).mpr ⟨wl, pattern, hasks, hzero, rfl⟩)
    · intro pu entityType key hasks hnone
      exact hprofiles' { entityType, entityKey := key }
        ((hadds.mem_profiles hstores).mpr (.inr ⟨pu, entityType, key, hasks, hnone, rfl⟩))
  · rintro ⟨hreason, hkey⟩
    refine ⟨?_, ?_, ?_⟩
    · intro c hc
      rw [hadds.whitelist] at hc
      rcases List.mem_append.mp hc with hc | hc
      · exact hwhitelist c hc
      · obtain ⟨wl, pattern, hasks, hzero, rfl⟩ := (mem_addedCandidates hstores).mp hc
        exact hreason wl pattern hasks hzero
    · intro c hc
      rw [hadds.rules, createRuleCandidate_none hstores] at hc
      exact hrules c (by simpa using hc)
    · intro p hp
      rcases (hadds.mem_profiles hstores).mp hp with hp | ⟨pu, entityType, key, hasks, hnone, rfl⟩
      · exact hprofiles p hp
      · exact hkey pu entityType key hasks hnone

theorem profileFor_entity (entityType : EntityType) (key : String) :
    ∃ profile, (profileFor db entityType key).2[(profileFor db entityType key).1]? = some profile ∧
      profile.entityType = entityType ∧ profile.entityKey = key := by
  unfold profileFor
  split
  · rename_i pid profile hfound
    obtain ⟨hrow, hentity⟩ := Rows.mem_select.mp (List.mem_of_mem_head? hfound)
    obtain ⟨htype, hkey⟩ := Bool.and_eq_true_iff.mp hentity
    exact ⟨profile, hrow, beq_iff_eq.mp htype, beq_iff_eq.mp hkey⟩
  · exact ⟨{ entityType, entityKey := key }, by simp, rfl, rfl⟩

/--
Settling the event of a submitted conclusion creates what the conclusion suggests, exactly if the
suggestions can be stored and none of them is a rule candidate.
-/
theorem suggestions_survive_iff (hparse : parseConclusion rt params = some payload)
    (hstored : t.conclusion = conclusionRow t.investigationId payload closure)
    (hopen : w.failed = false) (hcolumns : w.db.fitsColumns = true) :
    (∃ w', exec (settleAndStore rt config { embedding } tie t) w = (.ok (), w') ∧
        SuggestionsCreated rt config params payload.verdict t.investigationId w.db w'.db) ↔
      SuggestionsFit rt config params payload.verdict w.db := by
  have hstores : Stores params t.conclusion := by
    rw [hstored]
    exact stores_of_parse hparse
  have hverdict : t.conclusion.verdict = payload.verdict := by
    rw [hstored]
    rfl
  rw [← hverdict]
  constructor
  · rintro ⟨w', hrun, hcreated⟩
    obtain ⟨_, w₁, hsettle, hstore⟩ := exec_bind_ok.mp hrun
    have hpending : PendingOnce rt config t w.db := by
      by_contra hnot
      obtain ⟨e, w₂, hraises⟩ := @settleOne_raises rt config embedding tie t w hopen hnot
      rw [hsettle] at hraises
      cases congrArg Prod.fst hraises
    obtain ⟨w₂, hsettle', hadds⟩ := @exec_settleOne rt config embedding tie t w hopen hpending
    obtain rfl : w₁ = w₂ := congrArg Prod.snd (hsettle.symm.trans hsettle')
    obtain ⟨hfits, rfl⟩ := fitsColumns_of_stored hstore
    obtain ⟨hreason, hkey⟩ := (hadds.fitsColumns_iff hstores hcolumns).mp hfits
    refine ⟨?_, (pendingOnce_iff hstores).mp hpending, hreason, hkey⟩
    cases hrc : submittedAsset params "rule_candidate" with
    | none => rfl
    | some rc =>
      have hrules := (hcreated.rule rc hrc).symm.trans hadds.rules
      rw [createRuleCandidate_none hstores] at hrules
      cases List.append_cancel_left hrules
  · intro hfit
    obtain ⟨w', hsettle, hadds⟩ := @exec_settleOne rt config embedding tie t w hopen
      ((pendingOnce_iff hstores).mpr hfit.pending)
    have hfits := (hadds.fitsColumns_iff hstores hcolumns).mpr ⟨hfit.reason, hfit.key⟩
    refine ⟨w', (exec_bind_of_ok hsettle).trans (exec_storeRows hfits), ?_, ?_, ?_⟩
    · intro wl pattern hasks hzero
      rw [hadds.whitelist, addedCandidates, (whitelistPattern_iff hstores).mpr ⟨hasks, rfl⟩]
      dsimp only
      rw [if_pos hzero]
    · intro pu entityType key hasks
      obtain ⟨hsuggestions, hprofiles⟩ := hadds.profile hstores hasks
      obtain ⟨profile, hrow, htype, hkey⟩ := @profileFor_entity w.db entityType key
      exact ⟨_, profile, hsuggestions, by rw [hprofiles]; exact hrow, htype, hkey⟩
    · intro rc hrc
      rw [hfit.noRule] at hrc
      cases hrc

end

/-- The arguments of a submission that suggests one asset. -/
def suggestingParams (kind : String) (asset : List (String × Json)) : Json :=
  .obj [("verdict", .str "likely_false_positive"), ("suggested_assets", .obj [(kind, .obj asset)])]

def suggestingPayload (kind : String) (asset : List (String × Json)) : ConclusionPayload :=
  (parseConclusion (sampleRuntime .nondecreasing []) (suggestingParams kind asset)).getD
    (degradedConclusion "")

/-- The event of the submission. -/
def suggestingTarget (kind : String) (asset : List (String × Json)) : SettleTarget where
  eventId := 0
  event := { eventKey := "k", createdAt := 0 }
  investigationId := 0
  conclusion := conclusionRow 0 (suggestingPayload kind asset) none

theorem suggestingParams_parse {kind : String} {asset : List (String × Json)}
    (h : (parseConclusion (sampleRuntime .nondecreasing []) (suggestingParams kind asset)).isSome =
      true) :
    parseConclusion (sampleRuntime .nondecreasing []) (suggestingParams kind asset) =
      some (suggestingPayload kind asset) := by
  obtain ⟨payload, hpayload⟩ := Option.isSome_iff_exists.mp h
  rw [suggestingPayload, hpayload]
  rfl

def ruleAsset : List (String × Json) := [("title", .str "brute force")]

/-- A rule candidate is lost. -/
theorem rule_candidate_is_lost :
    ¬ ∀ (rt : Runtime) (config : DefenseAssetConfig) (params : Json) (payload : ConclusionPayload)
        (t : SettleTarget) (w : World), parseConclusion rt params = some payload →
      t.conclusion = conclusionRow t.investigationId payload none →
      payload.verdict.isSettleable = true → w.failed = false → w.db.fitsColumns = true →
      ∃ w', exec (settleAndStore rt config {} id t) w = (.ok (), w') ∧
        SuggestionsCreated rt config params payload.verdict t.investigationId w.db w'.db := by
  intro h
  obtain ⟨w', hrun, hcreated⟩ := h (sampleRuntime .nondecreasing []) {}
    (suggestingParams "rule_candidate" ruleAsset) _ (suggestingTarget "rule_candidate" ruleAsset) {}
    (suggestingParams_parse (by decide +kernel)) rfl (by decide +kernel) rfl rfl
  have hrules := hcreated.rule (.obj ruleAsset) rfl
  have hnone : (exec (settleAndStore (sampleRuntime .nondecreasing []) {} {} id
      (suggestingTarget "rule_candidate" ruleAsset)) {}).2.db.ruleCandidates.length = 0 := by
    decide +kernel
  rw [hrun, hrules] at hnone
  cases hnone

def whitelistAsset : List (String × Json) :=
  [("match_pattern", .obj [("field", .str "host_name"), ("value", .str "web-1")]),
    ("reason", .str "backup job")]

theorem suggestions_survive_whitelist :
    ∃ w', exec (settleAndStore (sampleRuntime .nondecreasing []) {} {} id
        (suggestingTarget "whitelist_candidate" whitelistAsset)) {} = (.ok (), w') ∧
      SuggestionsCreated (sampleRuntime .nondecreasing []) {}
        (suggestingParams "whitelist_candidate" whitelistAsset)
        (suggestingPayload "whitelist_candidate" whitelistAsset).verdict 0 {} w'.db := by
  refine (suggestions_survive_iff (w := {}) (suggestingParams_parse (by decide +kernel)) rfl rfl
    rfl).mpr ⟨rfl, ?_, ?_, ?_⟩
  · intro wl pattern _
    exact Nat.zero_lt_two
  · rintro wl pattern ⟨hwl, -⟩ -
    obtain rfl : Json.obj whitelistAsset = wl := Option.some.inj hwl
    rfl
  · rintro pu entityType key ⟨hpu, -⟩ -
    cases hpu

end Minsight

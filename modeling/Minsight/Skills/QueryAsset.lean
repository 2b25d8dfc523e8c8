import Minsight.Agent.Loop
import Minsight.Entity.Neighbours
import Minsight.Foundation.Cache

/-! # The asset skill and its cache

The cache key of an asset is in lower case, but the asset is looked up, and its data are made, with
the key as it was given.
-/

namespace Minsight

def AssetCriticality.value : AssetCriticality → String
  | .critical => "critical"
  | .high => "high"
  | .medium => "medium"
  | .low => "low"

structure EntityProfileStat where
  entityProfileId : ℕ
  windowDays : ℤ
  alertCount : ℤ := 0
  alertByCategory : Json := .obj []
  externalConnCount : ℤ := 0
  failedLoginCount : ℤ := 0

structure ProfileMemory extends EntityProfileMemory where
  content : String

structure DutyNote where
  scope : List (String × Json) := []
  content : String
  effectiveFrom : Time
  effectiveUntil : Option Time := none
  isActive : Bool := true

/-- The tables and the configuration the skill reads. A profile's key is its position. -/
structure AssetStore extends GraphStore where
  stats : List EntityProfileStat := []
  memories : List ProfileMemory := []
  notes : List DutyNote := []
  gatewayEnabled : Bool := false

/-- A call: its parameters, the clock where the skill reads it, and whether the cache can be read
and written. -/
structure AssetCall where
  params : Json
  memoryTime : Time := 0
  noteTime : Time := 0
  graphTime : Time := 0
  reads : Bool := true
  writes : Bool := true

structure AssetMemory where
  memoryType : String
  content : String
  confidence : ℚ

/-- The `data` of a result. -/
structure AssetData where
  entityType : String
  entityKey : String
  profile : Option AssetProfile
  stats7d : Option EntityProfileStat
  memories : List AssetMemory
  onDutyNotes : List String
  relatedEntities : Option (List Neighbor)
  gatewayCmdb : Option Json

structure CachedAsset where
  summary : String
  data : Json

abbrev AssetCache := String → Option CachedAsset

def profileJson (profile : AssetProfile) : Json :=
  .obj [("display_name", Json.orNull profile.displayName),
    ("owner_team", Json.orNull profile.ownerTeam),
    ("asset_criticality", .str profile.assetCriticality.value),
    ("is_known_scanner", .bool profile.isKnownScanner),
    ("is_jump_host", .bool profile.isJumpHost),
    ("is_decommissioned", .bool profile.isDecommissioned)]

def statsJson (stats : EntityProfileStat) : Json :=
  .obj [("alert_count", .int stats.alertCount),
    ("failed_login_count", .int stats.failedLoginCount),
    ("external_conn_count", .int stats.externalConnCount),
    ("alert_by_category", stats.alertByCategory)]

def AssetMemory.json (mem : AssetMemory) : Json :=
  .obj [("type", .str mem.memoryType), ("content", .str mem.content),
    ("confidence", .float mem.confidence), ("reference_only", .bool true)]

def Neighbor.json (item : Neighbor) : Json :=
  .obj [("entity_type", .str item.entityType), ("entity_key", .str item.entityKey),
    ("relation_type", .str item.relationType), ("confidence", .float item.confidence)]

def AssetData.json (data : AssetData) : Json :=
  .obj ([("entity_type", .str data.entityType), ("entity_key", .str data.entityKey),
      ("profile", (data.profile.map profileJson).getD .null),
      ("stats_7d", (data.stats7d.map statsJson).getD .null),
      ("memories", .arr (data.memories.map AssetMemory.json)),
      ("on_duty_notes", .arr (data.onDutyNotes.map Json.str)), ("reference_only", .bool true)]
    ++ (data.relatedEntities.map fun items =>
      ("related_entities", .arr (items.map Neighbor.json))).toList
    ++ (data.gatewayCmdb.map fun answer => ("gateway_cmdb", answer)).toList)

def boolText (b : Bool) : String := if b then "True" else "False"

/-- `_summarize` -/
def summarizeAsset (data : AssetData) : String :=
  match data.profile with
  | none =>
    let base := "No profile for " ++ data.entityType ++ ":" ++ data.entityKey ++ "."
    if data.onDutyNotes.isEmpty then base
    else base ++ " On-duty notes: " ++ joinText "; " (data.onDutyNotes.take 2)
  | some profile =>
    let related := (data.relatedEntities.getD []).take 3
    takeText 500 (joinText " "
      (["Asset " ++ data.entityKey ++ ": criticality=" ++ profile.assetCriticality.value ++ ",",
          "scanner=" ++ boolText profile.isKnownScanner ++ ", decommissioned="
            ++ boolText profile.isDecommissioned ++ "."]
        ++ (data.stats7d.map fun stats =>
          "7d alerts=" ++ toString stats.alertCount ++ ".").toList
        ++ (data.onDutyNotes.head?.map fun note => "On-duty: " ++ takeText 120 note).toList
        ++ if related.isEmpty then []
          else ["Related: " ++ joinText ", " (related.map fun r =>
            r.relationType ++ "->" ++ r.entityType ++ ":" ++ r.entityKey) ++ "."]))

section

variable (rt : Runtime) (store : AssetStore) (order : ReadOrder)

/-- `ENTITY_TYPE_MAP` -/
def assetTypes : String → Option EntityType
  | "ip" => some .ip
  | "host" => some .host
  | "user" => some .user
  | _ => none

/-- `session.execute(select(EntityProfile)…)`: the profile of an entity, with its key. -/
def profileOf (e : Entity) : Option (ℕ × AssetProfile) :=
  (Rows.select (fun _ (profile : AssetProfile) => profile.entity = e) store.profiles).head?

def statsOf (e : Entity) : Option EntityProfileStat :=
  (profileOf store e).bind fun row =>
    store.stats.find? fun stat => stat.entityProfileId = row.1 ∧ stat.windowDays = 7

def memoriesAt (now : Time) (e : Entity) : List AssetMemory :=
  match profileOf store e with
  | none => []
  | some row =>
    (store.memories.filter fun mem => mem.entityProfileId = row.1 ∧
        ¬ (mem.validUntil.any fun until_ => until_ < now)).map fun mem =>
      { memoryType := mem.memoryType.value, content := mem.content, confidence := mem.confidence }

/-- `_match_on_duty` -/
def notesAt (now : Time) (entityType entityKey : String) : List String :=
  (store.notes.filter fun item =>
    item.isActive && item.effectiveFrom ≤ now && !(item.effectiveUntil.any fun t => t < now)
      && ((match item.scope.lookup entityType with
          | some value => rt.str value == entityKey
          | none => false)
        || (match item.scope.lookup (entityType ++ "_name") with
          | some value => rt.str value == entityKey
          | none => false)
        || item.scope.any fun field => match field.2 with
          | .str text => text == entityKey
          | _ => false)).map (·.content)

def relatedAt (now : Time) (e : Entity) : Option (List Neighbor) :=
  (profileOf store e).map fun _ => oneHopNeighbors store.toGraphStore order now rt.lower e.1 e.2 8

def cmdbLookupHost (entityType entityKey : String) : Option Json :=
  if entityType = "host" && store.gatewayEnabled then
    some (.obj [("adapter", .str "cmdb"), ("operation", .str "lookup_host"), ("mode", .str "mock"),
      ("host_name", .str (strip entityKey)), ("owner_team", .str "unknown"),
      ("business_systems", .arr []),
      ("note", .str "CMDB gateway mock — set CMDB_API_URL for real integration")])
  else none

def AssetCall.entityType (call : AssetCall) : String :=
  rt.lower (rt.str ((call.params.get? "entity_type").getD (.str "")))

def AssetCall.entityKey (call : AssetCall) : String :=
  strip (rt.str ((call.params.get? "entity_key").getD (.str "")))

def lookupAsset (call : AssetCall) (entityType : EntityType) : AssetData :=
  let e : Entity := (entityType, call.entityKey rt)
  { entityType := call.entityType rt
    entityKey := call.entityKey rt
    profile := (profileOf store e).map Prod.snd
    stats7d := statsOf store e
    memories := memoriesAt store call.memoryTime e
    onDutyNotes := notesAt rt store call.noteTime (call.entityType rt) (call.entityKey rt)
    relatedEntities := relatedAt rt store order call.graphTime e
    gatewayCmdb := cmdbLookupHost store (call.entityType rt) (call.entityKey rt) }

def invalidAsset : SkillResult where
  success := false
  summary := "Invalid parameters: entity_type and entity_key required"
  error := some "invalid_params"

def cacheKeyOf (entityType entityKey : String) : String :=
  "asset:v1:" ++ entityType ++ ":" ++ rt.lower entityKey

/-- `_read_cache` -/
def readCache (call : AssetCall) (cache : AssetCache) (cacheKey : String) : Option CachedAsset :=
  if call.reads then cache cacheKey else none

/-- `_write_cache` -/
def writeCache (call : AssetCall) (cache : AssetCache) (cacheKey : String) (value : CachedAsset) :
    AssetCache :=
  if call.writes then Function.update cache cacheKey (some value) else cache

/-- `QueryAssetSkill.execute`, with the cache it leaves. -/
def queryAsset (cache : AssetCache) (call : AssetCall) : SkillResult × AssetCache :=
  let entityType := call.entityType rt
  let entityKey := call.entityKey rt
  match assetTypes entityType with
  | none => (invalidAsset, cache)
  | some kind =>
    if entityKey = "" then (invalidAsset, cache)
    else
      let cacheKey := cacheKeyOf rt entityType entityKey
      match readCache call cache cacheKey with
      | some cached =>
        ({ success := true, summary := cached.summary, data := cached.data
           evidenceRef := "asset:" ++ entityType ++ ":" ++ entityKey }, cache)
      | none =>
        let data := lookupAsset rt store order call kind
        let summary := summarizeAsset data
        ({ success := true, summary, data := data.json
           evidenceRef := "asset:" ++ entityType ++ ":" ++ entityKey },
          writeCache call cache cacheKey { summary, data := data.json })

def cacheAfter (calls : List AssetCall) : AssetCache :=
  calls.foldl (fun cache call => (queryAsset rt store order cache call).2) fun _ => none

def SkillResult.shown (result : SkillResult) : Bool × String × Json :=
  (result.success, result.summary, result.data)

/-- Every call shows what it would show with an empty cache. -/
def CacheTransparent (calls : List AssetCall) : Prop :=
  ∀ pre call post, calls = pre ++ call :: post →
    (queryAsset rt store order (cacheAfter rt store order pre) call).1.shown =
      (queryAsset rt store order (fun _ => none) call).1.shown

def AssetCall.entity (call : AssetCall) : Option Entity :=
  (assetTypes (call.entityType rt)).bind fun kind =>
    if call.entityKey rt = "" then none else some (kind, call.entityKey rt)

def freshAsset (call : AssetCall) : CachedAsset :=
  match call.entity rt with
  | none => { summary := invalidAsset.summary, data := invalidAsset.data }
  | some e =>
    { summary := summarizeAsset (lookupAsset rt store order call e.1)
      data := (lookupAsset rt store order call e.1).json }

def assetCache : Cached AssetCall String CachedAsset where
  slot call := (call.entity rt).map fun e => cacheKeyOf rt (call.entityType rt) e.2
  answer := freshAsset rt store order
  reads := AssetCall.reads
  writes := AssetCall.writes

/-- The call that filled what a call finds after others, if it finds anything. -/
def fillerOf (pre : List AssetCall) (call : AssetCall) : Option AssetCall :=
  (assetCache rt store order).queries.find ((assetCache rt store order).queries.after pre) call

/-- Two calls ask for the same entity, by the same key, and the same memories, notes and relations
are in force at both. -/
structure SameAsset (filler call : AssetCall) : Prop where
  entity : filler.entity rt = call.entity rt
  memories : ∀ e, call.entity rt = some e →
    memoriesAt store filler.memoryTime e = memoriesAt store call.memoryTime e
  notes : ∀ e, call.entity rt = some e →
    notesAt rt store filler.noteTime e.1.value e.2 = notesAt rt store call.noteTime e.1.value e.2
  related : ∀ e, call.entity rt = some e →
    relatedAt rt store order filler.graphTime e = relatedAt rt store order call.graphTime e

/-- What a call finds was filled by a call for the same asset. -/
def FilledBySame (calls : List AssetCall) : Prop :=
  ∀ pre call post, calls = pre ++ call :: post →
    ∀ filler, fillerOf rt store order pre call = some filler →
      SameAsset rt store order filler call

end

section

variable {rt : Runtime} {store : AssetStore} {order : ReadOrder} {call filler : AssetCall}
  {e : Entity}

theorem AssetCall.of_entity (h : call.entity rt = some e) :
    assetTypes (call.entityType rt) = some e.1 ∧ call.entityKey rt = e.2 ∧ e.2 ≠ "" := by
  obtain ⟨kind, hkind, h⟩ := Option.bind_eq_some_iff.mp h
  split at h
  · cases h
  · rename_i hkey
    obtain rfl := Option.some.inj h
    exact ⟨hkind, rfl, hkey⟩

theorem value_of_assetTypes {text : String} {kind : EntityType} (h : assetTypes text = some kind) :
    text = kind.value := by
  unfold assetTypes at h
  split at h <;> first | cases h; rfl | cases h

theorem slot_of_entity (h : call.entity rt = some e) :
    (assetCache rt store order).slot call = some (cacheKeyOf rt e.1.value e.2) := by
  have hslot : (assetCache rt store order).slot call =
      (call.entity rt).map fun e => cacheKeyOf rt (call.entityType rt) e.2 := rfl
  rw [hslot, h, value_of_assetTypes (AssetCall.of_entity h).1]
  rfl

theorem slot_of_none (h : call.entity rt = none) :
    (assetCache rt store order).slot call = none := by
  have hslot : (assetCache rt store order).slot call =
      (call.entity rt).map fun e => cacheKeyOf rt (call.entityType rt) e.2 := rfl
  rw [hslot, h]
  rfl

theorem queryAsset_of_none (h : call.entity rt = none) (cache : AssetCache) :
    queryAsset rt store order cache call = (invalidAsset, cache) := by
  unfold AssetCall.entity at h
  unfold queryAsset
  dsimp only
  cases hkind : assetTypes (call.entityType rt) with
  | none => rfl
  | some kind =>
    rw [hkind, Option.bind_some] at h
    have hkey : call.entityKey rt = "" := by
      by_contra hkey
      rw [if_neg hkey] at h
      cases h
    exact if_pos hkey

theorem queryAsset_of_some (h : call.entity rt = some e) (cache : AssetCache) :
    (queryAsset rt store order cache call).1.shown =
        (true, ((assetCache rt store order).reply cache call).summary,
          ((assetCache rt store order).reply cache call).data) ∧
      (queryAsset rt store order cache call).2 = (assetCache rt store order).keep cache call := by
  obtain ⟨hkind, hkey, hne⟩ := AssetCall.of_entity h
  have hslot : (assetCache rt store order).slot call =
      some (cacheKeyOf rt (call.entityType rt) e.2) := by
    rw [slot_of_entity h, value_of_assetTypes hkind]
  have hfind : (assetCache rt store order).find cache call =
      readCache call cache (cacheKeyOf rt (call.entityType rt) e.2) := by
    rw [Cached.find, hslot]
    rfl
  have hanswer : (assetCache rt store order).answer call =
      { summary := summarizeAsset (lookupAsset rt store order call e.1)
        data := (lookupAsset rt store order call e.1).json } := by
    change freshAsset rt store order call = _
    rw [freshAsset, h]
  have hwrites : (assetCache rt store order).writes call = call.writes := rfl
  unfold queryAsset
  rw [Cached.reply, Cached.keep, hslot, hfind, hanswer, hwrites]
  simp only [hkind, hkey, if_neg hne]
  cases readCache call cache (cacheKeyOf rt (call.entityType rt) e.2) with
  | none => exact ⟨rfl, rfl⟩
  | some cached => exact ⟨rfl, rfl⟩

theorem queryAsset_keep (cache : AssetCache) (call : AssetCall) :
    (queryAsset rt store order cache call).2 = (assetCache rt store order).keep cache call := by
  cases h : call.entity rt with
  | none => rw [queryAsset_of_none h, Cached.keep, slot_of_none h]
  | some e => exact (queryAsset_of_some h cache).2

theorem cacheAfter_eq (calls : List AssetCall) :
    cacheAfter rt store order calls = (assetCache rt store order).after calls := by
  have hstep : (fun cache call => (queryAsset rt store order cache call).2) =
      (assetCache rt store order).keep := by
    funext cache call
    exact queryAsset_keep cache call
  rw [cacheAfter, hstep]
  rfl

/-- A call shows what it would show with an empty cache if it replies with its own answer. -/
theorem shown_iff (cache : AssetCache) (call : AssetCall) :
    (queryAsset rt store order cache call).1.shown =
        (queryAsset rt store order (fun _ => none) call).1.shown ↔
      (assetCache rt store order).reply cache call = (assetCache rt store order).answer call := by
  cases h : call.entity rt with
  | none =>
    have hreply : (assetCache rt store order).reply cache call =
        (assetCache rt store order).answer call := by
      rw [Cached.reply, Cached.find, slot_of_none h]
      split <;> rfl
    rw [queryAsset_of_none h, queryAsset_of_none h]
    exact iff_of_true rfl hreply
  | some e =>
    have hempty : (assetCache rt store order).reply (fun _ => none) call =
        (assetCache rt store order).answer call := by
      rw [Cached.reply, Cached.find]
      split
      · cases (assetCache rt store order).slot call <;> rfl
      · rfl
    rw [(queryAsset_of_some h cache).1, (queryAsset_of_some h _).1, hempty]
    generalize (assetCache rt store order).reply cache call = reply
    generalize (assetCache rt store order).answer call = answer
    constructor
    · intro hshown
      obtain ⟨-, hrest⟩ := Prod.mk.inj hshown
      obtain ⟨hsummary, hdata⟩ := Prod.mk.inj hrest
      cases reply
      cases answer
      exact congr (congrArg CachedAsset.mk hsummary) hdata
    · rintro rfl
      rfl

theorem cacheTransparent_iff (calls : List AssetCall) :
    CacheTransparent rt store order calls ↔ (assetCache rt store order).Transparent calls := by
  unfold CacheTransparent Cached.Transparent
  simp only [cacheAfter_eq, shown_iff]

theorem AssetMemory.json_injective : Function.Injective AssetMemory.json := by
  rintro ⟨t, c, q⟩ ⟨t', c', q'⟩ h
  simpa [AssetMemory.json] using h

theorem Neighbor.json_injective : Function.Injective Neighbor.json := by
  rintro ⟨t, k, r, q⟩ ⟨t', k', r', q'⟩ h
  simpa [Neighbor.json] using h

theorem str_injective : Function.Injective Json.str := fun _ _ h => Json.str.inj h

theorem AssetData.json_inj {data data' : AssetData} (h : data.json = data'.json) :
    data.entityKey = data'.entityKey ∧ data.memories = data'.memories ∧
      data.onDutyNotes = data'.onDutyNotes ∧ data.relatedEntities = data'.relatedEntities := by
  have hfields := Json.obj.inj h
  simp only [List.cons_append, List.nil_append, List.cons.injEq, Prod.mk.injEq, true_and,
    Json.str.injEq, Json.arr.injEq] at hfields
  obtain ⟨-, hkey, -, -, hmemories, hnotes, hrest⟩ := hfields
  refine ⟨hkey, ?_, ?_, ?_⟩
  · exact List.map_injective_iff.mpr AssetMemory.json_injective hmemories
  · exact List.map_injective_iff.mpr str_injective hnotes
  · cases hr : data.relatedEntities with
    | none =>
      cases hr' : data'.relatedEntities with
      | none => rfl
      | some items =>
        rw [hr, hr'] at hrest
        cases hg : data.gatewayCmdb <;> cases hg' : data'.gatewayCmdb <;>
          simp [hg, hg'] at hrest
    | some items =>
      cases hr' : data'.relatedEntities with
      | none =>
        rw [hr, hr'] at hrest
        cases hg : data.gatewayCmdb <;> cases hg' : data'.gatewayCmdb <;>
          simp [hg, hg'] at hrest
      | some items' =>
        rw [hr, hr'] at hrest
        have hitems := (List.cons.inj hrest).1
        simp only [Prod.mk.injEq, true_and, Json.arr.injEq] at hitems
        exact congrArg some (List.map_injective_iff.mpr Neighbor.json_injective hitems)

theorem kind_of_cacheKey {kind kind' : EntityType} {key key' : String}
    (h : cacheKeyOf rt kind.value key = cacheKeyOf rt kind'.value key') : kind = kind' := by
  have hchars := congrArg String.toList h
  cases kind <;> cases kind' <;> simp [cacheKeyOf, EntityType.value] at hchars ⊢

theorem lookupAsset_eq (h : call.entity rt = some e) :
    lookupAsset rt store order call e.1 =
      { entityType := e.1.value
        entityKey := e.2
        profile := (profileOf store e).map Prod.snd
        stats7d := statsOf store e
        memories := memoriesAt store call.memoryTime e
        onDutyNotes := notesAt rt store call.noteTime e.1.value e.2
        relatedEntities := relatedAt rt store order call.graphTime e
        gatewayCmdb := cmdbLookupHost store e.1.value e.2 } := by
  obtain ⟨hkind, hkey, -⟩ := AssetCall.of_entity h
  rw [lookupAsset, value_of_assetTypes hkind, hkey]

/-- Calls with one cache key make the same answer exactly if they ask for the same asset. -/
theorem answer_eq_iff {e₀ : Entity} (hfiller : filler.entity rt = some e₀)
    (hcall : call.entity rt = some e)
    (hslot : (assetCache rt store order).slot filler = (assetCache rt store order).slot call) :
    (assetCache rt store order).answer filler = (assetCache rt store order).answer call ↔
      SameAsset rt store order filler call := by
  change freshAsset rt store order filler = freshAsset rt store order call ↔ _
  rw [freshAsset, freshAsset, hfiller, hcall]
  dsimp only
  rw [lookupAsset_eq hfiller, lookupAsset_eq hcall]
  have hkind : e₀.1 = e.1 := by
    rw [slot_of_entity hfiller, slot_of_entity hcall] at hslot
    exact kind_of_cacheKey (Option.some.inj hslot)
  constructor
  · intro h
    obtain ⟨hkey, hmemories, hnotes, hrelated⟩ :=
      AssetData.json_inj (congrArg CachedAsset.data h)
    obtain rfl : e₀ = e := Prod.ext hkind hkey
    refine ⟨hfiller.trans hcall.symm, fun e' he' => ?_, fun e' he' => ?_, fun e' he' => ?_⟩
    all_goals obtain rfl : e₀ = e' := Option.some.inj (hcall.symm.trans he')
    · exact hmemories
    · exact hnotes
    · exact hrelated
  · intro h
    obtain rfl : e₀ = e := Option.some.inj (hfiller.symm.trans (h.entity.trans hcall))
    rw [h.memories e₀ hcall, h.notes e₀ hcall, h.related e₀ hcall]

end

/-- The cache is transparent exactly if what a call finds was filled by a call with the same key,
at a time when the same memories, notes and relations were in force. -/
theorem asset_cache_transparent_iff (rt : Runtime) (store : AssetStore) (order : ReadOrder)
    (calls : List AssetCall) :
    CacheTransparent rt store order calls ↔ FilledBySame rt store order calls := by
  rw [cacheTransparent_iff, Cached.transparent_iff]
  unfold FilledBySame
  refine forall_congr' fun pre => forall_congr' fun call => forall_congr' fun post =>
    imp_congr_right fun _ => forall_congr' fun filler => imp_congr_right fun hfind => ?_
  obtain ⟨-, -, s, hcall, hfiller⟩ := Cached.filler_of_find hfind
  obtain ⟨e, he, -⟩ := Option.map_eq_some_iff.mp hcall
  obtain ⟨e₀, he₀, -⟩ := Option.map_eq_some_iff.mp hfiller
  exact answer_eq_iff he₀ he (hfiller.trans hcall.symm)

def hostQuery (key : String) : AssetCall where
  params := .obj [("entity_type", .str "host"), ("entity_key", .str key)]

/-- After a call for one host, a call for another is answered with the first one. -/
theorem other_case_is_answered_from_cache :
    ¬ ∀ (rt : Runtime) (store : AssetStore) (order : ReadOrder) (calls : List AssetCall),
      CacheTransparent rt store order calls := by
  intro h
  have hupper : (hostQuery "Web-1").entity (sampleRuntime .free []) = some (.host, "Web-1") := by
    decide +kernel
  have hlower : (hostQuery "web-1").entity (sampleRuntime .free []) = some (.host, "web-1") := by
    decide +kernel
  have hkeys : cacheKeyOf (sampleRuntime .free []) EntityType.host.value "Web-1" =
      cacheKeyOf (sampleRuntime .free []) EntityType.host.value "web-1" := by
    have hfold : "Web-1".toLower = "web-1" := by decide +kernel
    have hsame : "web-1".toLower = "web-1" := by decide +kernel
    exact congrArg (fun key => "asset:v1:" ++ EntityType.host.value ++ ":" ++ key)
      (hfold.trans hsame.symm)
  have hslot := @slot_of_entity _ {} tableOrder _ _ hlower
  have hfilled := (@slot_of_entity _ {} tableOrder _ _ hupper).trans (congrArg some hkeys)
  have htransparent := (cacheTransparent_iff _).mp
    (h (sampleRuntime .free []) {} tableOrder [hostQuery "Web-1", hostQuery "web-1"])
  have hanswer := (Cached.transparent_iff _).mp htransparent [hostQuery "Web-1"]
    (hostQuery "web-1") [] rfl _ (Cached.find_after_singleton hfilled rfl hslot rfl)
  have hsame := ((answer_eq_iff hupper hlower (hfilled.trans hslot.symm)).mp hanswer).entity
  rw [hupper, hlower] at hsame
  exact absurd hsame (by decide)

end Minsight

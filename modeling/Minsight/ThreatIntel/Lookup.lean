import Minsight.Agent.Loop
import Minsight.Foundation.Rows
import Minsight.ThreatIntel.Sync

/-! # Asking the threat-intel cache

`QueryThreatIntelSkill` looks an address up under the text that it is called with, without the
white space around it. The cache holds every address under its printed text alone, so an entry is
found where the caller wrote that text and nowhere else, and elsewhere the caller is told that
nothing is known.
-/

namespace Minsight

open Rows

/-- `IOC_MAP` -/
def iocMap : String → Option IocType
  | "ip" => some .ip
  | "domain" => some .domain
  | "hash" => some .hash
  | "url" => some .url
  | _ => none

/-- A call of the skill, and what the clock and the database answer. -/
structure IntelCall where
  params : Json
  now : Time
  /-- `str(exc)` when the query fails. -/
  failure : Option String := none
  /-- The order of entries that were fetched at the same time. -/
  tie : ℕ × ThreatIntelEntry → ℕ := Prod.fst

/-- The entries of an indicator that have not expired. -/
def unexpired (table : List ThreatIntelEntry) (now : Time) (iocType : IocType)
    (iocValue : String) : List (ℕ × ThreatIntelEntry) :=
  select (fun _ entry =>
    decide (entry.iocType = iocType ∧ entry.iocValue = iocValue ∧ now ≤ entry.expiresAt)) table

def invalidIoc : SkillResult where
  success := false
  summary := "Invalid ioc_type or ioc_value"
  error := some "invalid_params"

def cacheError (iocType iocValue exc : String) : SkillResult :=
  let summary :=
    "Threat intel cache lookup failed for " ++ iocType ++ ":" ++ iocValue ++ ": " ++ exc
  { success := false
    summary := takeText 500 summary
    data := .obj [("verdict", .str "unknown"), ("source", .str "cache_error"),
      ("note", .str (takeText 200 summary))]
    evidenceRef := "intel:" ++ iocType ++ ":" ++ iocValue
    error := some "cache_lookup_failed" }

def cachedIntel (iocType iocValue : String) (entry : ThreatIntelEntry) : SkillResult where
  success := true
  summary := takeText 500 ("Intel " ++ iocType ++ ":" ++ iocValue ++ " verdict=" ++
    entry.verdict.value ++ " source=" ++ entry.source)
  data := .obj [("verdict", .str entry.verdict.value), ("source", .str entry.source),
    ("confidence", .float entry.confidence), ("fetched_at", .str (isoformat entry.fetchedAt))]
  evidenceRef := "intel:" ++ iocType ++ ":" ++ iocValue

def noIntel (iocType iocValue : String) : SkillResult where
  success := true
  summary := "No intel for " ++ iocType ++ ":" ++ iocValue ++
    "; verdict=unknown (not configured)."
  data := .obj [("verdict", .str "unknown"), ("source", .str "not_configured"),
    ("note", .str "Threat intel provider not connected; treat as unknown only.")]
  evidenceRef := "intel:" ++ iocType ++ ":" ++ iocValue

/-- `QueryThreatIntelSkill.execute` -/
def queryThreatIntel (rt : Runtime) (table : List ThreatIntelEntry) (call : IntelCall) :
    SkillResult :=
  let iocTypeStr := rt.lower (rt.str ((call.params.get? "ioc_type").getD (.str "")))
  let iocValue := strip (rt.str ((call.params.get? "ioc_value").getD (.str "")))
  match iocMap iocTypeStr with
  | none => invalidIoc
  | some iocType =>
    if iocValue = "" then invalidIoc
    else
      match call.failure with
      | some exc => cacheError iocTypeStr iocValue exc
      | none =>
        let found := unexpired table call.now iocType iocValue
        match (orderLimit (descending (·.2.fetchedAt) call.tie) 1 found).head? with
        | some entry => cachedIntel iocTypeStr iocValue entry.2
        | none => noIntel iocTypeStr iocValue

/-- A result that tells the verdict, the source and the confidence of an entry. -/
structure Tells (result : SkillResult) (entry : ThreatIntelEntry) : Prop where
  success : result.success = true
  verdict : result.data.get? "verdict" = some (.str entry.verdict.value)
  source : result.data.get? "source" = some (.str entry.source)
  confidence : result.data.get? "confidence" = some (.float entry.confidence)

/-- A result that tells what the latest of some entries says. -/
def TellsLatest (result : SkillResult) (entries : List (ℕ × ThreatIntelEntry)) : Prop :=
  ∃ entry ∈ entries, (∀ other ∈ entries, other.2.fetchedAt ≤ entry.2.fetchedAt) ∧
    Tells result entry.2

variable {rt : Runtime} {table : List ThreatIntelEntry} {call : IntelCall} {v ip : String}
  {iocType : IocType}

theorem cachedIntel_tells (iocTypeStr iocValue : String) (entry : ThreatIntelEntry) :
    Tells (cachedIntel iocTypeStr iocValue entry) entry :=
  ⟨rfl, rfl, rfl, rfl⟩

theorem not_tells_cacheError {iocTypeStr iocValue exc : String} {entry : ThreatIntelEntry} :
    ¬ Tells (cacheError iocTypeStr iocValue exc) entry := by
  intro h
  cases h.success

theorem not_tells_noIntel {iocTypeStr iocValue : String} {entry : ThreatIntelEntry} :
    ¬ Tells (noIntel iocTypeStr iocValue) entry := by
  intro h
  have hnone : (noIntel iocTypeStr iocValue).data.get? "confidence" = none := rfl
  rw [h.confidence] at hnone
  cases hnone

theorem mem_unexpired {now : Time} {entry : ℕ × ThreatIntelEntry} :
    entry ∈ unexpired table now iocType v ↔ table[entry.1]? = some entry.2 ∧
      entry.2.iocType = iocType ∧ entry.2.iocValue = v ∧ now ≤ entry.2.expiresAt := by
  rw [unexpired, mem_select, decide_eq_true_iff]

theorem unexpired_of_ne {now : Time} (h : threatIntelCache.Reachable table)
    (hv : normalizeIp v = some ip) (hne : strip v ≠ ip) :
    unexpired table now .ip (strip v) = [] := by
  refine List.eq_nil_iff_forall_not_mem.mpr fun entry hentry => ?_
  obtain ⟨hmem, -, hvalue, -⟩ := mem_unexpired.mp hentry
  have hnormal := (threatIntelCache_normal h _ (List.mem_of_getElem? hmem)).normal
  have hstrip : normalizeIp (strip v) = normalizeIp v := by
    rw [normalizeIp, normalizeIp, strip_strip]
  rw [hvalue, hstrip, hv] at hnormal
  exact hne (Option.some.inj hnormal).symm

theorem queryThreatIntel_ip (hstr : ∀ s, rt.str (.str s) = s) (hlower : rt.lower "ip" = "ip")
    (htype : call.params.get? "ioc_type" = some (.str "ip"))
    (hvalue : call.params.get? "ioc_value" = some (.str v)) (hv : strip v ≠ "") :
    queryThreatIntel rt table call =
      match call.failure with
      | some exc => cacheError "ip" (strip v) exc
      | none =>
        match (orderLimit (descending (·.2.fetchedAt) call.tie) 1
          (unexpired table call.now .ip (strip v))).head? with
        | some entry => cachedIntel "ip" (strip v) entry.2
        | none => noIntel "ip" (strip v) := by
  simp only [queryThreatIntel, htype, hvalue, Option.getD_some, hstr, hlower, iocMap, if_neg hv]

/-- The reader is told what the latest unexpired entry of an address says exactly where the query
does not fail and the address is given in its normal text. -/
theorem queryThreatIntel_tellsLatest_iff (hstr : ∀ s, rt.str (.str s) = s)
    (hlower : rt.lower "ip" = "ip") (hreach : threatIntelCache.Reachable table)
    (htype : call.params.get? "ioc_type" = some (.str "ip"))
    (hvalue : call.params.get? "ioc_value" = some (.str v)) (hv : normalizeIp v = some ip)
    (hstored : unexpired table call.now .ip ip ≠ []) :
    TellsLatest (queryThreatIntel rt table call) (unexpired table call.now .ip ip) ↔
      call.failure = none ∧ strip v = ip := by
  have hne : strip v ≠ "" := by
    intro hempty
    rw [normalizeIp, hempty] at hv
    cases hv
  rw [queryThreatIntel_ip hstr hlower htype hvalue hne]
  constructor
  · rintro ⟨entry, -, -, htells⟩
    cases hfailure : call.failure with
    | some exc =>
      rw [hfailure] at htells
      exact absurd htells not_tells_cacheError
    | none =>
      refine ⟨rfl, ?_⟩
      by_contra hdiffers
      rw [hfailure, unexpired_of_ne hreach hv hdiffers] at htells
      exact not_tells_noIntel htells
  · rintro ⟨hfailure, rfl⟩
    rw [hfailure]
    obtain ⟨stored, hmem⟩ := List.exists_mem_of_ne_nil _ hstored
    cases hhead : (orderLimit (descending (·.2.fetchedAt) call.tie) 1
        (unexpired table call.now .ip (strip v))).head? with
    | none => exact absurd hhead (head_orderLimit_ne_none hmem)
    | some entry =>
      obtain ⟨hentry, hfirst⟩ := head_orderLimit hhead
      exact ⟨entry, hentry, fun other hother => (hfirst other hother).le,
        cachedIntel_tells "ip" (strip v) entry.2⟩

def sampleSync : SyncCall where
  settings := { cacheTtl := 86400000000 }
  providers := [{
    name := "greynoise"
    lookupIp _ _ :=
      .ok (some { verdict := .malicious, source := "greynoise", confidence := 4 / 5 }) }]
  force := true
  ips := some ["2606:4700:4700::1111"]
  special _ := false
  now := 0

theorem sampleSync_stores :
    ∃ merged, (sampleSync.run []).2 = [sampleSync.entryOf "2606:4700:4700::1111" merged] := by
  have hnormal : normalizeIp "2606:4700:4700::1111" = some "2606:4700:4700::1111" := by
    decide +kernel
  have hpublic : isPublicIp (fun _ => false) "2606:4700:4700::1111" = true := by decide +kernel
  obtain ⟨merged, hmerged⟩ := @mergeLookupResults_ne_none
    [{ verdict := .malicious, source := "greynoise", confidence := 4 / 5 }] (List.cons_ne_nil _ _)
  have hlookup (st : SyncState) : sampleSync.syncIp [] 0 "2606:4700:4700::1111" st =
      .ok { st with
        pending := st.pending ++ [sampleSync.entryOf "2606:4700:4700::1111" merged]
        result := { st.result with synced := st.result.synced + 1 } } := by
    simp [SyncCall.syncIp, SyncCall.lookup, SyncCall.askProvider, sampleSync, hnormal, hpublic,
      hmerged]
  have hsync := fun st => Tx.except_bind_ok.mpr ⟨_, hlookup st, rfl⟩
  have hprepare : sampleSync.prepare [] = .ok _ :=
    Tx.except_bind_ok.mpr ⟨_, rfl, Tx.except_bind_ok.mpr ⟨_, hsync _, rfl⟩⟩
  refine ⟨merged, ?_⟩
  have hproviders : sampleSync.providers.isEmpty = false := rfl
  rw [SyncCall.run, hprepare, hproviders]
  rfl

/-- The cache after that run. -/
def sampleCache : List ThreatIntelEntry := (sampleSync.run []).2

theorem sampleCache_reachable : threatIntelCache.Reachable sampleCache :=
  .step .init trivial rfl

/-- A call of the skill for an address. -/
def askFor (ip : String) : IntelCall where
  params := .obj [("ioc_type", .str "ip"), ("ioc_value", .str ip)]
  now := 0

theorem sampleCache_stored (ip : String) :
    unexpired sampleCache (askFor ip).now .ip "2606:4700:4700::1111" ≠ [] := by
  obtain ⟨merged, hmerged⟩ := sampleSync_stores
  have hmem : (0, sampleSync.entryOf "2606:4700:4700::1111" merged) ∈
      unexpired sampleCache 0 .ip "2606:4700:4700::1111" := by
    rw [mem_unexpired, sampleCache, hmerged]
    exact ⟨rfl, rfl, rfl, (by decide : (0 : Time) ≤ 0 + 86400000000)⟩
  exact List.ne_nil_of_mem hmem

/-- The address in the text of the cache, with white space around it. -/
theorem queryThreatIntel_finds :
    TellsLatest (queryThreatIntel (sampleRuntime .free []) sampleCache
        (askFor " 2606:4700:4700::1111 "))
      (unexpired sampleCache 0 .ip "2606:4700:4700::1111") :=
  (@queryThreatIntel_tellsLatest_iff _ _ (askFor " 2606:4700:4700::1111 ") _ _ (fun _ => rfl)
    (by decide +kernel) sampleCache_reachable rfl rfl (by decide +kernel)
    (sampleCache_stored " 2606:4700:4700::1111 ")).mpr ⟨rfl, by decide +kernel⟩

/-- The same address with its zeros written out is told to be unknown. -/
theorem queryThreatIntel_misses :
    threatIntelCache.Reachable sampleCache ∧
      normalizeIp "2606:4700:4700:0:0:0:0:1111" = some "2606:4700:4700::1111" ∧
      unexpired sampleCache 0 .ip "2606:4700:4700::1111" ≠ [] ∧
      ¬ TellsLatest (queryThreatIntel (sampleRuntime .free []) sampleCache
          (askFor "2606:4700:4700:0:0:0:0:1111"))
        (unexpired sampleCache 0 .ip "2606:4700:4700::1111") := by
  refine ⟨sampleCache_reachable, by decide +kernel,
    sampleCache_stored "2606:4700:4700:0:0:0:0:1111", ?_⟩
  have hstrip : strip "2606:4700:4700:0:0:0:0:1111" = "2606:4700:4700:0:0:0:0:1111" := by
    decide +kernel
  have hnone : unexpired sampleCache 0 .ip "2606:4700:4700:0:0:0:0:1111" = [] := by
    have hnormal : normalizeIp "2606:4700:4700:0:0:0:0:1111" = some "2606:4700:4700::1111" := by
      decide +kernel
    have hempty := @unexpired_of_ne _ _ _ 0 sampleCache_reachable hnormal (by rw [hstrip]; decide)
    rw [hstrip] at hempty
    exact hempty
  rw [@queryThreatIntel_ip _ _ _ "2606:4700:4700:0:0:0:0:1111" (fun _ => rfl) (by decide +kernel)
    rfl rfl (by rw [hstrip]; decide), hstrip]
  rintro ⟨entry, -, -, htells⟩
  have hmiss : Tells (noIntel "ip" "2606:4700:4700:0:0:0:0:1111") entry.2 := by
    simpa [askFor, hnone, orderLimit] using htells
  exact not_tells_noIntel hmiss

end Minsight

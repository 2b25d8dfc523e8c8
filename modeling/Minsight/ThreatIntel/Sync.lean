import Minsight.Aggregation.Key
import Minsight.Foundation.IpAddress
import Minsight.Foundation.System
import Minsight.Foundation.Trimmed
import Minsight.Model.World
import Minsight.ThreatIntel.Merge

/-! # Filling the threat-intel cache

`ThreatIntelSyncService.run` asks the providers about addresses and stores what they say under the
text that an address is printed as. So whatever texts the addresses had where they came from, every
text in the cache is the printed one.
-/

namespace Minsight

open Digits Ip

inductive IocType
  | ip | domain | hash | url
deriving DecidableEq

/-- A row of `threat_intel_entries`. -/
structure ThreatIntelEntry where
  iocType : IocType
  iocValue : String
  verdict : ThreatIntelVerdict
  source : String
  confidence : ℚ
  rawResponse : List (String × Json)
  fetchedAt : Time
  expiresAt : Time

def normalizeIp (value : String) : Option String :=
  let text := strip value
  if text = "" then none else (ipAddress text.toList).map fun addr => String.ofList addr.print

/-- Whether an address is public, where the library says which addresses are private, loopback,
link-local, multicast or reserved. -/
def isPublicIp (special : IpAddress → Bool) (value : String) : Bool :=
  match normalizeIp value with
  | none => false
  | some normalized => ((ipAddress normalized.toList).map fun addr => !special addr).getD false

inductive LookupError
  | status (code : ℕ)
  | other (message : String)

structure Provider where
  name : String
  /-- The answer to a lookup of an address, by its place among the addresses. -/
  lookupIp : ℕ → String → Except LookupError (Option IntelLookupResult)

structure ThreatIntelSyncResult where
  candidates : ℕ := 0
  skippedPrivate : ℕ := 0
  skippedFresh : ℕ := 0
  synced : ℕ := 0
  failed : ℕ := 0
  errors : List String := []

structure ThreatIntelSettings where
  syncWindowDays : ℤ := 7
  syncLimit : ℤ := 50
  cacheTtl : Time
  skipPrivateIps : Bool := true

/-- A run of the service: its arguments, and what the providers, the library, the clock and the
database answer. -/
structure SyncCall where
  settings : ThreatIntelSettings
  /-- `_build_providers()` -/
  providers : List Provider
  windowDays : Option ℤ := none
  limit : Option ℤ := none
  force : Bool := false
  dryRun : Bool := false
  ips : Option (List String) := none
  /-- The addresses of alerts in a window of days, as many as the limit allows. -/
  collectAlertIps : ℤ → ℤ → List String := fun _ _ => []
  special : IpAddress → Bool
  now : Time
  /-- Whether a statement fails, by how many came before it. -/
  statementFails : ℕ → Bool := fun _ => false

/-- The state of a run: the entries added to the session, what is counted, and the statements. -/
structure SyncState where
  pending : List ThreatIntelEntry := []
  result : ThreatIntelSyncResult := {}
  statements : ℕ := 0

namespace SyncCall

variable (call : SyncCall) (table : List ThreatIntelEntry)

/-- Sends a statement. -/
def statement (st : SyncState) : Except Exn SyncState :=
  if call.statementFails st.statements then .error .statement
  else .ok { st with statements := st.statements + 1 }

/-- `_has_fresh_cache`, which also sees what the session has not committed. -/
def hasFreshCache (ip : String) (st : SyncState) : Bool :=
  (table ++ st.pending).any fun entry =>
    decide (entry.iocType = .ip ∧ entry.iocValue = ip ∧ call.now ≤ entry.expiresAt)

def askProvider (n : ℕ) (ip : String)
    (found : List IntelLookupResult × ThreatIntelSyncResult) (provider : Provider) :
    List IntelLookupResult × ThreatIntelSyncResult :=
  match provider.lookupIp n ip with
  | .ok (some item) => (found.1 ++ [item], found.2)
  | .ok none => found
  | .error (.status code) =>
    (found.1, { found.2 with
      failed := found.2.failed + 1
      errors := found.2.errors ++ [provider.name ++ ":" ++ ip ++ ": HTTP " ++ toString code] })
  | .error (.other message) =>
    (found.1, { found.2 with
      failed := found.2.failed + 1
      errors := found.2.errors ++ [provider.name ++ ":" ++ ip ++ ": " ++ message] })

def entryOf (ip : String) (merged : IntelLookupResult) : ThreatIntelEntry where
  iocType := .ip
  iocValue := ip
  verdict := merged.verdict
  source := merged.source
  confidence := merged.confidence
  rawResponse := merged.rawResponse
  fetchedAt := call.now
  expiresAt := call.now + call.settings.cacheTtl

/-- What the providers say of an address, added to the session. -/
def lookup (n : ℕ) (ip : String) (st : SyncState) : SyncState :=
  let (lookupResults, result) := call.providers.foldl (askProvider n ip) ([], st.result)
  match mergeLookupResults lookupResults with
  | none => { st with result }
  | some merged =>
    { st with
      pending := if call.dryRun then st.pending else st.pending ++ [call.entryOf ip merged]
      result := { result with synced := result.synced + 1 } }

def syncIp (n : ℕ) (rawIp : String) (st : SyncState) : Except Exn SyncState :=
  match normalizeIp rawIp with
  | none => .ok st
  | some ip =>
    if call.settings.skipPrivateIps && !isPublicIp call.special ip then
      .ok { st with result := { st.result with skippedPrivate := st.result.skippedPrivate + 1 } }
    else if call.force then .ok (call.lookup n ip st)
    else do
      let st ← call.statement st
      if call.hasFreshCache table ip st then
        return { st with result := { st.result with skippedFresh := st.result.skippedFresh + 1 } }
      else return call.lookup n ip st

def syncIps : ℕ → List String → SyncState → Except Exn SyncState
  | _, [], st => .ok st
  | n, rawIp :: rest, st => do syncIps (n + 1) rest (← call.syncIp table n rawIp st)

def targetIps : Except Exn (List String × SyncState) :=
  match call.ips with
  | some ips => .ok (ips, {})
  | none => do
    let st ← call.statement {}
    let windowDays := call.windowDays.getD call.settings.syncWindowDays
    let limit := call.limit.getD call.settings.syncLimit
    return (call.collectAlertIps windowDays limit, st)

/-- The state of the run once it has committed, where there is something to commit. -/
def prepare : Except Exn SyncState := do
  let (ips, st) ← call.targetIps
  let st ← call.syncIps table 0 ips { st with result := { candidates := ips.length } }
  if st.result.synced ≠ 0 ∧ call.dryRun = false then call.statement st else return st

/-- `ThreatIntelSyncService.run`, with the table that it leaves. -/
def run : Except Exn ThreatIntelSyncResult × List ThreatIntelEntry :=
  if call.providers.isEmpty then
    (.ok { errors := [
      "No threat intel provider configured (set ABUSEIPDB_API_KEY or GREYNOISE_API_KEY)"] }, table)
  else
    match call.prepare table with
    | .error e => (.error e, table)
    | .ok st => (.ok st.result, table ++ st.pending)

end SyncCall

/-- The cache, filled by runs of the service. -/
def threatIntelCache : System (List ThreatIntelEntry) SyncCall where
  init := []
  step call table := some (call.run table).2

theorem not_isSpace_of_isHex {c : Char} (h : isHex c = true) : isSpace c = false := by
  simp only [isHex, isDecimal, Bool.or_eq_true, Bool.and_eq_true, decide_eq_true_eq, Char.le_def,
    UInt32.le_iff_toNat_le] at h
  have hrange : 48 ≤ c.toNat ∧ c.toNat ≤ 102 := by
    rcases h with (⟨h, h'⟩ | ⟨h, h'⟩) | ⟨h, h'⟩
    all_goals exact ⟨le_trans (by decide) h, le_trans h' (by decide)⟩
  simp only [isSpace]
  grind

theorem trimmed_print_v4 (address : IPv4Address) : Trimmed address.print := by
  apply trimmed_of_forall
  intro c hc
  rcases isDecimal_or_dot hc with rfl | hc
  · decide
  · exact not_isSpace_of_isHex (by simp [isHex, hc])

theorem trimmed_print_v6 {text : List Char} {address : IPv6Address} (htext : Trimmed text)
    (h : readIPv6 text = some address) : Trimmed address.print := by
  have hparts : ∀ c ∈ [':'].intercalate (compressHextets address.hextets), isSpace c = false := by
    intro c hc
    rcases isHex_or_colon hc with rfl | hc
    · decide
    · exact not_isSpace_of_isHex hc
  cases hscope : address.scopeId with
  | none =>
    rw [IPv6Address.print, hscope]
    simpa using trimmed_of_forall hparts
  | some scope =>
    obtain ⟨start, rfl⟩ := scope_suffix h hscope
    rw [IPv6Address.print, hscope]
    exact htext.of_tail (by decide) hparts

/-- What was read from a text without white space around it is printed without it. -/
theorem trimmed_print {text : List Char} {addr : IpAddress} (htext : Trimmed text)
    (h : ipAddress text = some addr) : Trimmed addr.print := by
  rw [ipAddress] at h
  split at h
  · cases h
  · cases addr with
    | v4 address => exact trimmed_print_v4 address
    | v6 address =>
      have hread : readIPv6 text = some address := by
        rcases Option.or_eq_some_iff.mp h with h | ⟨-, h⟩
        · simp at h
        · simpa using h
      exact trimmed_print_v6 htext hread

theorem print_ne_nil (addr : IpAddress) : addr.print ≠ [] := by
  intro h
  have hread := ipAddress_print addr
  rw [h] at hread
  cases hread

theorem normalizeIp_normalizeIp {v ip : String} (h : normalizeIp v = some ip) :
    strip ip = ip ∧ normalizeIp ip = some ip := by
  rw [normalizeIp] at h
  split at h
  · cases h
  · obtain ⟨addr, haddr, rfl⟩ := Option.map_eq_some_iff.mp h
    have htrimmed : Trimmed (strip v).toList := by
      rw [strip, String.toList_ofList]
      exact trimmed_stripChars _
    have hstrip : strip (String.ofList addr.print) = String.ofList addr.print := by
      rw [strip, String.toList_ofList, stripChars_of_trimmed (trimmed_print htrimmed haddr)]
    refine ⟨hstrip, ?_⟩
    rw [normalizeIp]
    simp only [hstrip, String.toList_ofList, ipAddress_print, Option.map_some]
    exact if_neg fun hempty => print_ne_nil addr (String.ofList_eq_empty_iff.mp hempty)

structure ThreatIntelEntry.Normal (entry : ThreatIntelEntry) : Prop where
  ip : entry.iocType = .ip
  normal : normalizeIp entry.iocValue = some entry.iocValue

def SyncState.Normal (st : SyncState) : Prop := ∀ entry ∈ st.pending, entry.Normal

namespace SyncCall

variable {call : SyncCall} {table : List ThreatIntelEntry} {st st' : SyncState}

theorem statement_pending (h : call.statement st = .ok st') : st'.pending = st.pending := by
  unfold statement at h
  split at h
  · cases h
  · rw [← Except.ok.inj h]

theorem lookup_normal {n : ℕ} {ip : String} (hip : normalizeIp ip = some ip) (h : st.Normal) :
    (call.lookup n ip st).Normal := by
  unfold lookup
  dsimp only
  split
  · exact h
  · dsimp only [SyncState.Normal]
    split
    · exact h
    · rw [List.forall_mem_append, List.forall_mem_singleton]
      exact ⟨h, rfl, hip⟩

theorem syncIp_normal {n : ℕ} {rawIp : String} (h : st.Normal)
    (hsync : call.syncIp table n rawIp st = .ok st') : st'.Normal := by
  unfold syncIp at hsync
  split at hsync
  · rw [← Except.ok.inj hsync]
    exact h
  · rename_i ip hip
    have hip := (normalizeIp_normalizeIp hip).2
    split at hsync
    · rw [← Except.ok.inj hsync]
      exact h
    · split at hsync
      · rw [← Except.ok.inj hsync]
        exact lookup_normal hip h
      · obtain ⟨st₁, hst₁, hsync⟩ := Tx.except_bind_ok.mp hsync
        have h₁ : st₁.Normal := by
          rw [SyncState.Normal, statement_pending hst₁]
          exact h
        split at hsync
        · rw [← Except.ok.inj hsync]
          exact h₁
        · rw [← Except.ok.inj hsync]
          exact lookup_normal hip h₁

theorem syncIps_normal {n : ℕ} {rawIps : List String} (h : st.Normal)
    (hsync : call.syncIps table n rawIps st = .ok st') : st'.Normal := by
  induction rawIps generalizing n st with
  | nil =>
    rw [← Except.ok.inj hsync]
    exact h
  | cons rawIp rest ih =>
    obtain ⟨st₁, hst₁, hsync⟩ := Tx.except_bind_ok.mp hsync
    exact ih (syncIp_normal h hst₁) hsync

theorem targetIps_pending {ips : List String} (h : call.targetIps = .ok (ips, st)) :
    st.pending = [] := by
  unfold targetIps at h
  split at h
  · obtain ⟨-, rfl⟩ := Prod.mk.inj (Except.ok.inj h)
    rfl
  · obtain ⟨st', hst', h⟩ := Tx.except_bind_ok.mp h
    obtain ⟨-, rfl⟩ := Prod.mk.inj (Except.ok.inj h)
    exact statement_pending hst'

theorem prepare_normal (h : call.prepare table = .ok st) : st.Normal := by
  obtain ⟨⟨ips, st₀⟩, hst₀, h⟩ := Tx.except_bind_ok.mp h
  obtain ⟨st₁, hst₁, h⟩ := Tx.except_bind_ok.mp h
  have h₁ : st₁.Normal := by
    refine syncIps_normal ?_ hst₁
    rw [SyncState.Normal, targetIps_pending hst₀]
    exact fun _ => nofun
  split at h
  · rw [SyncState.Normal, statement_pending h]
    exact h₁
  · rw [← Except.ok.inj h]
    exact h₁

end SyncCall

theorem threatIntelCache_normal {table : List ThreatIntelEntry}
    (h : threatIntelCache.Reachable table) : ∀ entry ∈ table, entry.Normal := by
  refine System.ReachableBy.invariant (I := fun table => ∀ entry ∈ table, entry.Normal) ?_ ?_ h
  · exact fun _ => nofun
  · intro table call table' htable _ hstep
    obtain rfl := Option.some.inj hstep
    unfold SyncCall.run
    split
    · exact htable
    · split
      · exact htable
      · rename_i st hst
        rw [List.forall_mem_append]
        exact ⟨htable, SyncCall.prepare_normal hst⟩

end Minsight

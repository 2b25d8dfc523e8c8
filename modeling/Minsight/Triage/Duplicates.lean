import Minsight.Foundation.Joined
import Minsight.Ingestion.Batch
import Minsight.Triage.Dedup

/-! # What a duplicate shares with its representative

The fingerprint of an alert is the digest of seven fields joined with bars. The fields come from
the documents and may hold bars themselves, so different fields can have one fingerprint.
-/

namespace Minsight

open Tx Session

section

variable (rt : Runtime) (names : ℕ → String)

/-- The parts of an alert's fingerprint, where a missing field is an empty one. -/
def fingerprintParts (a : Alert) : List String :=
  [names a.dataSourceId, a.ruleId.getD "", a.srcIp.getD "", a.dstIp.getD "", a.userName.getD "",
    a.hostName.getD "", a.alertCategory.getD ""]

def fingerprintText (a : Alert) : String := joinText "|" (fingerprintParts names a)

def fingerprinting (a : Alert) : String × List String := (a.fingerprint, fingerprintParts names a)

def Fingerprinted (a : Alert) : Prop :=
  a.fingerprint = takeText 16 (rt.sha256Hex (fingerprintText names a))

/-- The outcomes of mapping documents of a source with this name, enriched or not. -/
def WazuhItems (name : String) (items : List (Except Exn NormalizedAlert)) : Prop :=
  ∀ n, .ok n ∈ items → ∃ int uuid clock raw geo mapped,
    mapWazuhAlert rt int uuid name clock raw = .ok mapped ∧
      (n = mapped ∨ enrichSrcGeo geo mapped = .ok n)

/-- What runs between two transactions: a batch of Wazuh documents, or what leaves alerts alone. -/
inductive WazuhInterlude (w : World) : World → Prop
  | ingested {source : ℕ} {env : IngestBatchEnv} (hitems : WazuhItems rt (names source) env.items) :
      WazuhInterlude w (exec (runBatch rt source env) w).2
  | quiet {w' : World} (groups : w'.db.alertDedupGroups = w.db.alertDedupGroups)
      (results : w'.db.triageResults = w.db.triageResults)
      (alerts : w'.db.alerts.map (fingerprinting names) =
        w.db.alerts.map (fingerprinting names)) : WazuhInterlude w w'

end

section

variable {rt : Runtime} {names : ℕ → String} {w w' : World} {source : ℕ} {env : IngestBatchEnv}

theorem mapWazuhAlert_fingerprint {int : String → Option ℤ} {uuid name : String} {clock : MapClock}
    {raw : Document} {n : NormalizedAlert}
    (h : mapWazuhAlert rt int uuid name clock raw = .ok n) :
    n.fingerprint = computeFingerprint rt name n.ruleId n.srcIp n.dstIp n.userName n.hostName
      n.alertCategory := by
  simp only [mapWazuhAlert, except_bind_ok] at h
  obtain ⟨_, -, _, -, _, -, _, -, _, -, _, -, _, -, _, -, _, -, _, -, _, -, h⟩ := h
  rw [← Except.ok.inj h]

theorem enrichSrcGeo_ok {geo : String → Except Exn Document} {n n' : NormalizedAlert}
    (h : enrichSrcGeo geo n = .ok n') :
    ∃ fields, n' = { n with normalizedFields := fields } := by
  unfold enrichSrcGeo at h
  split at h
  · exact ⟨_, (Except.ok.inj h).symm⟩
  · split at h
    · exact ⟨_, (Except.ok.inj h).symm⟩
    · obtain ⟨found, -, h⟩ := except_bind_ok.mp h
      split at h
      · exact ⟨_, (Except.ok.inj h).symm⟩
      · exact ⟨_, (Except.ok.inj h).symm⟩

theorem WazuhItems.fingerprinted {items : List (Except Exn NormalizedAlert)}
    (h : WazuhItems rt (names source) items) {n : NormalizedAlert} (hn : .ok n ∈ items)
    (now : Time) : Fingerprinted rt names (alertRow source now n) := by
  obtain ⟨int, uuid, clock, raw, geo, mapped, hmap, rfl | hgeo⟩ := h n hn
  · exact mapWazuhAlert_fingerprint hmap
  · obtain ⟨fields, rfl⟩ := enrichSrcGeo_ok hgeo
    exact mapWazuhAlert_fingerprint hmap

theorem runBatch_alerts (rt : Runtime) (source : ℕ) (env : IngestBatchEnv) (w : World) :
    ∃ added, (exec (runBatch rt source env) w).2.db =
        { w.db with alerts := w.db.alerts ++ added } ∧
      ∀ a ∈ added, ∃ n now, .ok n ∈ env.items ∧ a = alertRow source now n := by
  rw [runBatch, Session.transaction, exec_atomically]
  split
  case h_1 result w' h =>
    simp only [exec_fallible_bind_ok, exec_utcNow_bind, exec_query_bind, exec_modify_bind,
      exec_pure, Prod.mk.injEq] at h
    obtain ⟨-, -, -, rfl⟩ := h
    rw [insertNew_eq]
    obtain ⟨added, hadded, hmem⟩ := @Conflicts.insertAbsent_eq_append _ sameSourceAlert
      w.db.alerts ((env.items.filterMap Except.toOption).map
        (alertRow source (rt.clock.reading w.out.clock env.now)))
    rw [hadded]
    refine ⟨added, rfl, fun a ha => ?_⟩
    obtain ⟨n, hn, rfl⟩ := List.mem_map.mp (hmem a ha)
    obtain ⟨item, hitem, hok⟩ := List.mem_filterMap.mp hn
    cases item with
    | error e => cases hok
    | ok m =>
      obtain rfl : m = n := Option.some.inj hok
      exact ⟨m, _, hitem, rfl⟩
  case h_2 e w' h =>
    exact ⟨[], by simp, List.forall_mem_nil _⟩

theorem Fingerprinted.of_eq {a a' : Alert} (h : Fingerprinted rt names a)
    (heq : fingerprinting names a' = fingerprinting names a) : Fingerprinted rt names a' := by
  obtain ⟨hfp, hparts⟩ := Prod.mk.injEq .. ▸ heq
  rw [Fingerprinted, hfp, fingerprintText, hparts]
  exact h

theorem WazuhInterlude.between (h : WazuhInterlude rt names w w') : BetweenTriage w w' := by
  cases h with
  | @ingested source env hitems =>
    obtain ⟨added, hdb, -⟩ := runBatch_alerts rt source env w
    refine ⟨by rw [hdb], by rw [hdb], fun i a ha => ⟨a, ?_, rfl⟩⟩
    rw [hdb, List.getElem?_append_left (Rows.lt_of_getElem? ha)]
    exact ha
  | quiet groups results alerts =>
    refine ⟨groups, results, fun i a ha => ?_⟩
    have hrow := congrArg (·[i]?) alerts
    simp only [List.getElem?_map, ha, Option.map_some] at hrow
    obtain ⟨a', ha', hsame⟩ := Option.map_eq_some_iff.mp hrow
    exact ⟨a', ha', congrArg Prod.fst hsame⟩

def AllFingerprinted (rt : Runtime) (names : ℕ → String) (db : Db) : Prop :=
  ∀ a ∈ db.alerts, Fingerprinted rt names a

theorem allFingerprinted_of_map {db db' : Db} (h : AllFingerprinted rt names db)
    (heq : db'.alerts.map (fingerprinting names) = db.alerts.map (fingerprinting names)) :
    AllFingerprinted rt names db' := by
  intro a' ha'
  have hmem : fingerprinting names a' ∈ db.alerts.map (fingerprinting names) := by
    rw [← heq]
    exact List.mem_map_of_mem ha'
  obtain ⟨a, ha, hsame⟩ := List.mem_map.mp hmem
  exact (h a ha).of_eq hsame.symm

theorem WazuhInterlude.allFingerprinted (h : WazuhInterlude rt names w w')
    (hw : AllFingerprinted rt names w.db) : AllFingerprinted rt names w'.db := by
  cases h with
  | @ingested source env hitems =>
    obtain ⟨added, hdb, hadded⟩ := runBatch_alerts rt source env w
    rw [hdb]
    intro a ha
    rcases List.mem_append.mp ha with ha | ha
    · exact hw a ha
    · obtain ⟨n, now, hn, rfl⟩ := hadded a ha
      exact hitems.fingerprinted hn now
  | quiet groups results alerts => exact allFingerprinted_of_map hw alerts

theorem AllFingerprinted.pipelineRun {config : TriageConfig} {tenv : TriageEnv}
    {alert : AlertSnapshot} {c : TriageContext} (hw : AllFingerprinted rt names w.db)
    (hrun : exec (pipelineRun rt config tenv { alert }) w = (.ok c, w')) :
    AllFingerprinted rt names w'.db := by
  obtain ⟨gid, groups, route, now, -, -, -, -, -, -, -, hdb⟩ := pipelineRun_ok hrun
  rw [hdb]
  apply allFingerprinted_of_map hw
  exact Rows.map_update_eq fun a => rfl

variable {n : ℤ} {fp : String} {w₀ : World} {log : List (Arrival ℕ Time)}

theorem allFingerprinted_of_history (hempty : w₀.db.alerts = [])
    (h : TriageHistory rt n fp (WazuhInterlude rt names) w₀ log w) :
    AllFingerprinted rt names w.db := by
  induction h with
  | start =>
    rw [AllFingerprinted, hempty]
    exact List.forall_mem_nil _
  | committed h hwindow hloaded hrun hfp ih => exact ih.pipelineRun hrun
  | other h hrun hfp ih => exact ih.pipelineRun hrun
  | rolledBack h ih => exact ih
  | between h hbetween ih => exact hbetween.allFingerprinted ih

theorem stored_of_history (h : TriageHistory rt n fp (WazuhInterlude rt names) w₀ log w) :
    ∀ e ∈ log, ∃ a : Alert, w.db.alerts[e.key]? = some a ∧ a.fingerprint = fp := by
  -- an alert that is stored stays stored with its fingerprint
  have hkept {config tenv alert c} {w w' : World}
      (hrun : exec (pipelineRun rt config tenv { alert }) w = (.ok c, w')) (i : ℕ)
      (hi : ∃ a : Alert, w.db.alerts[i]? = some a ∧ a.fingerprint = fp) :
      ∃ a : Alert, w'.db.alerts[i]? = some a ∧ a.fingerprint = fp := by
    obtain ⟨gid, groups, route, now, -, -, -, -, -, -, -, hdb⟩ := pipelineRun_ok hrun
    obtain ⟨a, ha, hfp⟩ := hi
    obtain ⟨a', ha', hfp'⟩ := getElem?_routed c route ha c.alert.id
    rw [hdb]
    exact ⟨a', ha', hfp'.trans hfp⟩
  induction h with
  | start => exact fun _ he => absurd he List.not_mem_nil
  | committed h hwindow hloaded hrun hfp ih =>
    intro e he
    rcases List.mem_append.mp he with he | he
    · exact hkept hrun e.key (ih e he)
    · obtain rfl := List.mem_singleton.mp he
      obtain ⟨a, ha, hsame⟩ := hloaded
      exact hkept hrun _ ⟨a, ha, hsame.trans hfp⟩
  | other h hrun hfp ih => exact fun e he => hkept hrun e.key (ih e he)
  | rolledBack h ih => exact ih
  | between h hbetween ih =>
    intro e he
    obtain ⟨a, ha, hfp⟩ := ih e he
    obtain ⟨a', ha', hfp'⟩ := hbetween.between.fingerprints e.key a ha
    exact ⟨a', ha', hfp'.trans hfp⟩

/-- The digests of the fingerprint texts of alerts differ if the texts do. -/
def FingerprintsApart (rt : Runtime) (names : ℕ → String) (db : Db) : Prop :=
  ∀ a ∈ db.alerts, ∀ b ∈ db.alerts,
    takeText 16 (rt.sha256Hex (fingerprintText names a)) =
      takeText 16 (rt.sha256Hex (fingerprintText names b)) →
    fingerprintText names a = fingerprintText names b

/-- The alert of an arrival and that of the last opening before it are related. -/
def RelatesToOpening (R : Alert → Alert → Prop) (db : Db) (before : List (Arrival ℕ Time))
    (e : Arrival ℕ Time) : Prop :=
  ∀ r, lastOpening before = some r → ∀ a b, db.alerts[e.key]? = some a →
    db.alerts[r.key]? = some b → R a b

/-- Two alerts agree on every part of the fingerprint. -/
def AgreeOn (names : ℕ → String) (a b : Alert) : Prop :=
  fingerprintParts names a = fingerprintParts names b

/-- Each part of the fingerprint holds equally many bars in two alerts. -/
def SameBars (names : ℕ → String) (a b : Alert) : Prop :=
  (fingerprintParts names a).map (separators '|') = (fingerprintParts names b).map (separators '|')

/-- The arrival comes within the window of the last opening. -/
def WithinWindow (window : Time) (before : List (Arrival ℕ Time)) (e : Arrival ℕ Time) : Prop :=
  ∃ r, lastOpening before = some r ∧ e.time ≤ r.time + window

/--
In a history of Wazuh alerts every alert that is archived as a duplicate agrees with the
representative of its group if and only if every alert that is triaged within the window of its
representative holds as many bars in each field.
-/
theorem duplicates_agree_iff (halerts : w₀.db.alerts = []) (hgroups : w₀.db.alertDedupGroups = [])
    (h : TriageHistory rt n fp (WazuhInterlude rt names) w₀ log w)
    (hdigests : FingerprintsApart rt names w.db) :
    (∀ before e after, log = before ++ e :: after → e.repeated = true →
        RelatesToOpening (AgreeOn names) w.db before e) ↔
      ∀ before e after, log = before ++ e :: after → WithinWindow (minutes n) before e →
        RelatesToOpening (SameBars names) w.db before e := by
  have hnew : ∀ g ∈ w₀.db.alertDedupGroups, g.fingerprint ≠ fp := by
    rw [hgroups]
    exact List.forall_mem_nil _
  obtain ⟨o, hheld⟩ := dedupHeld_of_history (fun _ _ hb => hb.between) hnew h
  have hlaw : DedupLaw (minutes n) fp log w.db := hheld.law
  have hprinted := allFingerprinted_of_history halerts h
  constructor
  · intro hagree before e after hlog hwithin r hr a b ha hb
    have hrepeated := (hlaw.archived_iff before e after hlog).mpr hwithin
    exact congrArg (List.map (separators '|')) (hagree before e after hlog hrepeated r hr a b ha hb)
  · intro hbars before e after hlog hrepeated r hr a b ha hb
    have hwithin := (hlaw.archived_iff before e after hlog).mp hrepeated
    have hsame := hbars before e after hlog hwithin r hr a b ha hb
    have hstored := stored_of_history h
    rw [hlog] at hstored
    obtain ⟨a', ha', hafp⟩ := hstored e (by simp)
    obtain ⟨b', hb', hbfp⟩ := hstored r (List.mem_append_left _ (mem_of_lastOpening hr))
    obtain rfl : a = a' := Option.some.inj (ha.symm.trans ha')
    obtain rfl : b = b' := Option.some.inj (hb.symm.trans hb')
    have hmema := List.mem_of_getElem? ha
    have hmemb := List.mem_of_getElem? hb
    have htext := hdigests a hmema b hmemb
      ((hprinted a hmema).symm.trans ((hafp.trans hbfp.symm).trans (hprinted b hmemb)))
    exact (joinText_inj hsame).mp htext

end

def loginDocument (id user host : String) : Document :=
  [("_id", .str id), ("data", .obj [("dstuser", .str user)]), ("agent", .obj [("name", .str host)])]

def loginBatch (first second : String × String) : IngestBatchEnv where
  now := 0
  items := [loginDocument "a" first.1 first.2, loginDocument "b" second.1 second.2].map
    (mapWazuhAlert (sampleRuntime .nondecreasing []) String.toInt? "" "siem" {
      idAt := 0, occurredAt := 0 })

theorem loginBatch_items (first second : String × String) :
    WazuhItems (sampleRuntime .nondecreasing []) "siem" (loginBatch first second).items := by
  intro n hn
  obtain ⟨raw, -, hraw⟩ := List.mem_map.mp hn
  exact ⟨_, _, _, _, fun _ => .ok [], n, hraw, .inl rfl⟩

def loginWorld (first second : String × String) : World :=
  (exec (runBatch (sampleRuntime .nondecreasing []) 0 (loginBatch first second)) {}).2

def triageLogin (id : ℕ) (w : World) : Except Exn TriageContext × World :=
  exec (pipelineRun (sampleRuntime .nondecreasing []) {} { dedupNow := 0 } {
    alert := {
      id
      dataSourceName := "siem"
      row := (w.db.alerts[id]?).getD {
        dataSourceId := 0, sourceAlertId := "", fingerprint := "", occurredAt := 0
        ingestedAt := 0 } } }) w

def triagedLogins (first second : String × String) : World :=
  (triageLogin 1 (triageLogin 0 (loginWorld first second)).2).2

/-- The first alert opens the window, and the second one repeats it. -/
def loginLog (first second : String × String) : List (Arrival ℕ Time) :=
  [{ key := 0, time := (loginWorld first second).out.clock, repeated := false },
   { key := 1, time := (triageLogin 0 (loginWorld first second)).2.out.clock, repeated := true }]

/-- The alert is stored, and triage gives it this route without moving the clock. -/
def LoginRouted (id : ℕ) (route : RouteDecision) (w : World) : Prop :=
  (w.db.alerts[id]?).map (·.fingerprint) = some "" ∧
    (sampleRuntime .nondecreasing []).clock.reading w.out.clock 0 = w.out.clock ∧
    (triageLogin id w).1.toOption.map (·.routeDecision) = some (some route)
deriving Decidable

theorem triageLogin_history {names : ℕ → String} {log : List (Arrival ℕ Time)} {w : World} {id : ℕ}
    {route : RouteDecision}
    (h : TriageHistory (sampleRuntime .nondecreasing []) 60 ""
      (WazuhInterlude (sampleRuntime .nondecreasing []) names) {} log w)
    (hroute : LoginRouted id route w) :
    TriageHistory (sampleRuntime .nondecreasing []) 60 ""
      (WazuhInterlude (sampleRuntime .nondecreasing []) names) {}
      (log ++ [{ key := id, time := w.out.clock, repeated := decide (route = .archiveDedup) }])
      (triageLogin id w).2 := by
  obtain ⟨hloaded, hclock, hrun⟩ := hroute
  obtain ⟨a, ha, hfp⟩ := Option.map_eq_some_iff.mp hloaded
  obtain ⟨ctx, w', hctx, hroute⟩ := exec_of_returned_map hrun
  have hnext := h.committed rfl ⟨a, ha, by simp [ha]⟩ hctx (by simpa [ha] using hfp)
  rw [show (triageLogin id w).2 = w' from congrArg Prod.snd hctx]
  simpa [hroute, hclock] using hnext

theorem triagedLogins_history (first second : String × String)
    (h₀ : LoginRouted 0 .queueUncertain (loginWorld first second))
    (h₁ : LoginRouted 1 .archiveDedup (triageLogin 0 (loginWorld first second)).2) :
    TriageHistory (sampleRuntime .nondecreasing []) 60 ""
      (WazuhInterlude (sampleRuntime .nondecreasing []) fun _ => "siem") {}
      (loginLog first second) (triagedLogins first second) := by
  have hstart : TriageHistory (sampleRuntime .nondecreasing []) 60 ""
      (WazuhInterlude (sampleRuntime .nondecreasing []) fun _ => "siem") {} []
      (loginWorld first second) :=
    .between .start (.ingested (loginBatch_items first second))
  exact triageLogin_history (triageLogin_history hstart h₀) h₁

def AllSame {β : Type} [BEq β] (f : Alert → β) (db : Db) : Prop :=
  (db.alerts.map f).all (fun b => (db.alerts.map f).head? == some b) = true
deriving Decidable

theorem AllSame.eq {β : Type} [BEq β] [LawfulBEq β] {f : Alert → β} {db : Db} (h : AllSame f db)
    {a b : Alert} (ha : a ∈ db.alerts) (hb : b ∈ db.alerts) : f a = f b := by
  have hhead {a : Alert} (ha : a ∈ db.alerts) : (db.alerts.map f).head? = some (f a) :=
    beq_iff_eq.mp (List.all_eq_true.mp h _ (List.mem_map_of_mem ha))
  exact Option.some.inj ((hhead ha).symm.trans (hhead hb))

/-- A user on a host repeats another user on another host: their fingerprints are the same. -/
theorem duplicates_agree_bars :
    ¬ ∀ (rt : Runtime) (names : ℕ → String) (n : ℤ) (fp : String) (w₀ w : World)
        (log : List (Arrival ℕ Time)), w₀.db.alerts = [] → w₀.db.alertDedupGroups = [] →
      TriageHistory rt n fp (WazuhInterlude rt names) w₀ log w → FingerprintsApart rt names w.db →
      ∀ before e after, log = before ++ e :: after → e.repeated = true →
        RelatesToOpening (AgreeOn names) w.db before e := by
  intro hall
  have hhistory := triagedLogins_history ("u|h", "c") ("u", "h|c")
    (by decide +kernel) (by decide +kernel)
  have hone : AllSame (fingerprintText fun _ => "siem")
      (triagedLogins ("u|h", "c") ("u", "h|c")).db := by decide +kernel
  have hagree := hall _ _ _ _ _ _ _ rfl rfl hhistory (fun a ha b hb _ => hone.eq ha hb)
    [_] _ [] rfl rfl _ rfl
  have husers : ((triagedLogins ("u|h", "c") ("u", "h|c")).db.alerts.map (·.userName)) =
    [some "u|h", some "u"] := by decide +kernel
  obtain ⟨b, rest, hdb, hb, hrest⟩ := List.map_eq_cons_iff.mp husers
  obtain ⟨a, others, rfl, ha, -⟩ := List.map_eq_cons_iff.mp hrest
  have hparts : fingerprintParts (fun _ => "siem") a = fingerprintParts (fun _ => "siem") b :=
    hagree a b (by rw [hdb]; rfl) (by rw [hdb]; rfl)
  have huser : a.userName.getD "" = b.userName.getD "" := by
    simp only [fingerprintParts, List.cons.injEq] at hparts
    exact hparts.2.2.2.2.1
  rw [ha, hb] at huser
  exact absurd huser (by decide)

/-- The same user on the same host. -/
theorem duplicates_agree_repeated :
    let w := triagedLogins ("u", "h") ("u", "h")
    ∀ before e after, loginLog ("u", "h") ("u", "h") = before ++ e :: after → e.repeated = true →
      RelatesToOpening (AgreeOn fun _ => "siem") w.db before e := by
  have hhistory := triagedLogins_history ("u", "h") ("u", "h")
    (by decide +kernel) (by decide +kernel)
  have hone : AllSame (fingerprintText fun _ => "siem")
      (triagedLogins ("u", "h") ("u", "h")).db := by decide +kernel
  have hbars : AllSame (fun a => (fingerprintParts (fun _ => "siem") a).map (separators '|'))
      (triagedLogins ("u", "h") ("u", "h")).db := by decide +kernel
  apply (duplicates_agree_iff rfl rfl hhistory fun a ha b hb _ => hone.eq ha hb).mpr
  intro before e after _ _ r _ a b ha hb
  exact hbars.eq (List.mem_of_getElem? ha) (List.mem_of_getElem? hb)

end Minsight

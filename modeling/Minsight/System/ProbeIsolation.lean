import Minsight.Aggregation.Effects
import Minsight.System.Simulation

/-! # Probes and real alerts

Probe alerts travel through the same aggregation as real ones. As long as no alert is merged
into an event that holds alerts of the other kind, the two kinds never meet.
-/

namespace Minsight

open Tx Session Docket

def Db.flags (db : Db) : List Bool := db.alerts.map isProbeAlert

/-- The event holds a probe, or an alert that is none. -/
def HoldsAlert (db : Db) (probe : Bool) (e : ℕ) : Prop :=
  ∃ l ∈ db.eventAlerts, l.eventId = e ∧ db.flags[l.alertId]? = some probe

instance (db : Db) (probe : Bool) (e : ℕ) : Decidable (HoldsAlert db probe e) :=
  inferInstanceAs (Decidable (∃ l ∈ db.eventAlerts, l.eventId = e ∧ _))

structure ProbesApart (db : Db) : Prop where
  links : ∀ l ∈ db.eventAlerts, l.eventId < db.events.length ∧ l.alertId < db.flags.length
  apart : ∀ e, HoldsAlert db true e → ¬HoldsAlert db false e

/-- Alerts and links are added; the alerts that are there keep their kind. -/
structure Extends (db db' : Db) : Prop where
  flags : db.flags <+: db'.flags
  links : db.eventAlerts <+: db'.eventAlerts

instance : Std.Refl Extends where
  refl _ := ⟨List.prefix_rfl, List.prefix_rfl⟩

instance : IsTrans Db Extends where
  trans _ _ _ h h' := ⟨h.flags.trans h'.flags, h.links.trans h'.links⟩

structure KeepsLinks (db db' : Db) : Prop where
  flags : db.flags <+: db'.flags
  links : db'.eventAlerts = db.eventAlerts

instance : Std.Refl KeepsLinks where
  refl _ := ⟨List.prefix_rfl, rfl⟩

instance : IsTrans Db KeepsLinks where
  trans _ _ _ h h' := ⟨h.flags.trans h'.flags, h'.links.trans h.links⟩

theorem KeepsLinks.of_eq {db db' : Db} (hflags : db'.flags = db.flags)
    (hlinks : db'.eventAlerts = db.eventAlerts) : KeepsLinks db db' :=
  ⟨hflags ▸ List.prefix_rfl, hlinks⟩

theorem KeepsLinks.extends {db db' : Db} (h : KeepsLinks db db') : Extends db db' :=
  ⟨h.flags, h.links ▸ List.prefix_rfl⟩

section

variable {db db' : Db} {e i : ℕ} {probe : Bool}

theorem flags_eq_of_grows (h : db.flags <+: db'.flags) (hi : i < db.flags.length) :
    db'.flags[i]? = db.flags[i]? := by
  obtain ⟨new, hnew⟩ := h
  rw [← hnew, List.getElem?_append_left hi]

theorem HoldsAlert.extends (h : HoldsAlert db probe e) (hx : Extends db db') :
    HoldsAlert db' probe e := by
  obtain ⟨l, hl, he, hflag⟩ := h
  refine ⟨l, hx.links.subset hl, he, ?_⟩
  rw [flags_eq_of_grows hx.flags (Rows.lt_of_getElem? hflag)]
  exact hflag

theorem probesApart_empty : ProbesApart {} where
  links := nofun
  apart := by
    rintro e ⟨l, hl, -⟩
    cases hl

theorem ProbesApart.keepsLinks (h : ProbesApart db) (hk : KeepsLinks db db')
    (hlen : db.events.length ≤ db'.events.length) : ProbesApart db' := by
  have back : ∀ {probe e}, HoldsAlert db' probe e → HoldsAlert db probe e := by
    rintro probe e ⟨l, hl, he, hflag⟩
    rw [hk.links] at hl
    rw [flags_eq_of_grows hk.flags (h.links l hl).2] at hflag
    exact ⟨l, hl, he, hflag⟩
  constructor
  case links =>
    rw [hk.links]
    intro l hl
    obtain ⟨he, ha⟩ := h.links l hl
    exact ⟨he.trans_le hlen, ha.trans_le hk.flags.length_le⟩
  case apart => exact fun e hp hr => h.apart e (back hp) (back hr)

theorem ProbesApart.eventIsProbe (h : ProbesApart db) (hr : HoldsAlert db false e) :
    eventIsProbe db e = false := by
  by_contra hp
  simp only [Minsight.eventIsProbe, Bool.not_eq_false, List.any_eq_true, Bool.and_eq_true,
    beq_iff_eq] at hp
  obtain ⟨l, hl, he, hflag⟩ := hp
  refine h.apart e ⟨l, hl, he, ?_⟩ hr
  rw [Db.flags, List.getElem?_map]
  cases ha : db.alerts[l.alertId]? with
  | none => simp [ha] at hflag
  | some a => simpa [ha] using hflag

end

section

variable {rt : Runtime} {config : AggregationConfig} {tie : ℕ → ℕ} {item : PendingAlert}
  {db db' : Db} {e i : ℕ} {probe : Bool}

/-- The event found for the alert holds no alert of the other kind. -/
def mergesApart (rt : Runtime) (config : AggregationConfig) (tie : ℕ → ℕ) (w : World)
    (item : PendingAlert) : Bool :=
  match normalizeDimensions rt config item.alert.hostName item.alert.userName
      item.alert.alertCategory item.alert.occurredAt with
  | .error _ => true
  | .ok dims =>
    match findMergeTarget tie dims.eventKey (w.db.events.select fun _ _ => true) with
    | none => true
    | some (eventId, _) => w.db.eventAlerts.all fun l =>
      l.eventId != eventId || w.db.flags[l.alertId]? != some (!isProbeAlert item.alert)

theorem flags_recordLink {now : Time} {maxSeverity : ℤ} :
    (recordLink item e now maxSeverity db).flags = db.flags :=
  Rows.map_update_eq fun _ => rfl

theorem Linked.flags (h : Linked rt config tie item db db') : db'.flags = db.flags := by
  obtain ⟨dims, eventId, events, now, -, -, -, rfl⟩ := h
  exact flags_recordLink

theorem Linked.extends (h : Linked rt config tie item db db') : Extends db db' := by
  refine ⟨h.flags ▸ List.prefix_rfl, ?_⟩
  obtain ⟨dims, eventId, events, now, -, -, -, rfl⟩ := h
  exact List.prefix_append _ _

theorem ProbesApart.linked {w : World} (h : ProbesApart w.db)
    (hitem : w.db.flags[item.alertId]? = some (isProbeAlert item.alert))
    (hmerge : mergesApart rt config tie w item = true) (hl : Linked rt config tie item w.db db') :
    ProbesApart db' := by
  have hflags := hl.flags
  obtain ⟨dims, eventId, events, now, hdims, -, hchosen, rfl⟩ := hl
  -- the chosen event exists, and what it holds is of the alert's kind
  obtain ⟨hlen, hchoice, hother⟩ : w.db.events.length ≤ events.length ∧ eventId < events.length ∧
      ¬HoldsAlert w.db (!isProbeAlert item.alert) eventId := by
    cases hchosen with
    | merged hfound =>
      refine ⟨le_rfl, Rows.lt_of_getElem? (Rows.mem_select.mp (findMergeTarget_some hfound).1).1, ?_⟩
      rintro ⟨l, hmem, he, hflag⟩
      rw [mergesApart, hdims] at hmerge
      simp only [hfound, List.all_eq_true, Bool.or_eq_true, bne_iff_ne] at hmerge
      rcases hmerge l hmem with hne | hne
      · exact hne he
      · exact hne hflag
    | created createdAt =>
      refine ⟨by simp, by simp, ?_⟩
      rintro ⟨l, hmem, he, -⟩
      exact (h.links l hmem).1.ne he
  constructor
  case links =>
    intro l hmem
    rw [hflags]
    simp only [recordLink, List.mem_append, List.mem_singleton, List.length_modify] at hmem ⊢
    rcases hmem with hmem | rfl
    · obtain ⟨he, ha⟩ := h.links l hmem
      exact ⟨he.trans_le hlen, ha⟩
    · exact ⟨hchoice, Rows.lt_of_getElem? hitem⟩
  case apart =>
    have split : ∀ {probe e}, HoldsAlert (recordLink item eventId now
        (maxSeverityForEvent w.db eventId item.alert.severity) { w.db with events := events }) probe e →
        HoldsAlert w.db probe e ∨ e = eventId ∧ probe = isProbeAlert item.alert := by
      rintro probe e ⟨l, hmem, he, hflag⟩
      rw [hflags] at hflag
      simp only [recordLink, List.mem_append, List.mem_singleton] at hmem
      rcases hmem with hmem | rfl
      · exact .inl ⟨l, hmem, he, hflag⟩
      · exact .inr ⟨he.symm, Option.some.inj (hflag.symm.trans hitem)⟩
    intro e hp hr
    rcases split hp with hprobe | ⟨rfl, hkind⟩
    · rcases split hr with hreal | ⟨rfl, hkind⟩
      · exact h.apart e hprobe hreal
      · rw [← hkind] at hother
        exact hother hprobe
    · rw [← hkind] at hother
      rcases split hr with hreal | ⟨-, hkind'⟩
      · exact hother hreal
      · rw [← hkind] at hkind'
        cases hkind'

end

section

variable {rt : Runtime}

theorem keepsLinks_of_intake {db db' : Db} (h : db'.intake = db.intake) : KeepsLinks db db' := by
  simp only [Db.intake, Prod.mk.injEq] at h
  obtain ⟨halerts, -, hlinks, -⟩ := h
  exact .of_eq (congrArg (List.map isProbeAlert) halerts) hlinks

theorem keepsLinks_of_leaves {α : Type} {m : Session α} (h : Respects (Leaves rt Db.intake) m) :
    Respects (OnDb KeepsLinks) m :=
  h.mono fun _ _ hi => keepsLinks_of_intake hi.db

theorem runBatch_keepsLinks {source : ℕ} {env : IngestBatchEnv} :
    Respects (OnDb KeepsLinks) (runBatch rt source env) := by
  refine respects_transaction fun w result w' h => ?_
  simp only [exec_fallible_bind_ok, exec_utcNow_bind, exec_query_bind, exec_modify_bind, exec_pure,
    Prod.mk.injEq] at h
  obtain ⟨-, -, -, rfl⟩ := h
  exact ⟨Conflicts.prefix_insertAbsent.map isProbeAlert, rfl⟩

theorem triageRun_keepsLinks {config : TriageConfig} {env : TriageRunEnv} {limit : Option ℤ}
    {useLock : Bool} : Respects (OnDb KeepsLinks) (triageRun rt config env limit useLock) := by
  refine triageRun_respects fun alert db db' h => ?_
  obtain ⟨ctx, route, now, -, -, -, -, hdb⟩ := h
  have halerts : db'.alerts = (recordTriage ctx route now db).alerts := by
    have := congrArg Db.alerts hdb
    exact this
  have hflags : db'.flags = db.flags := by
    rw [Db.flags, halerts]
    exact Rows.map_update_eq fun _ => rfl
  have hlinks : db'.eventAlerts = db.eventAlerts := by
    have := congrArg Db.eventAlerts hdb
    exact this
  exact .of_eq hflags hlinks

theorem isProbeAlert_probeRow (source : ℕ) (now : Time) (scenario suffix : String)
    (n : NormalizedAlert) : isProbeAlert (probeRow source now scenario suffix n) = true := by
  have hkey : healthProbeKey ≠ "health_check_scenario" := by decide
  simp only [isProbeAlert, probeRow, probeFields, Json.get?, lookup_setField_ne _ _ hkey,
    lookup_setField_self]
  rfl

theorem injectProbe_ok {env : HealthCheckEnv} {scenario : HealthCheckScenario} {alertId : ℕ}
    {w w' : World} (h : exec (injectProbe rt env scenario) w = (.ok alertId, w')) :
    KeepsLinks w.db w'.db ∧ w'.db.flags[alertId]? = some true := by
  rw [injectProbe, exec_atomically_ok, exec_query_bind] at h
  split at h
  · simp at h
  · split at h
    · simp at h
    · simp only [exec_utcNow_bind, exec_query_bind] at h
      split at h
      · simp at h
      · simp only [exec_modify_bind, exec_fallible_bind_ok, exec_pure, Prod.mk.injEq,
          Except.ok.injEq] at h
        obtain ⟨-, rfl, rfl⟩ := h
        refine ⟨⟨(List.prefix_append _ _).map isProbeAlert, rfl⟩, ?_⟩
        simp [Db.flags, isProbeAlert_probeRow]

theorem injectProbe_keepsLinks {env : HealthCheckEnv} {scenario : HealthCheckScenario} :
    Respects (OnDb KeepsLinks) (injectProbe rt env scenario) :=
  respects_transaction fun _ _ _ h => (injectProbe_ok (exec_atomically_ok.mpr h)).1

end

section

variable {rt : Runtime} {config : AggregationConfig} {env : AggregationRunEnv}
  {limit : Option ℤ} {useLock : Bool} {w : World}

/-- Every alert the run comes to is merged apart from alerts of the other kind. -/
def aggregatesApart (rt : Runtime) (config : AggregationConfig) (env : AggregationRunEnv)
    (limit : Option ℤ) (useLock : Bool) (w : World) : Bool :=
  let n := limitOr limit config.batchSize
  useLock && !env.lockAcquired || decide (n < 0) || env.fetchFault.isSome ||
    (aggregationLoop rt config env).starts (mergesApart rt config env.tie)
      (fetchPending env.tie n.toNat w.db) w

theorem flags_of_mem_fetchPending {tie : ℕ → ℕ} {n : ℕ} {db : Db} {item : PendingAlert}
    (h : item ∈ fetchPending tie n db) :
    db.flags[item.alertId]? = some (isProbeAlert item.alert) := by
  have hmem := Rows.mem_of_mem_orderLimit h
  simp only [List.mem_flatMap, Prod.exists, Rows.mem_select, List.mem_map] at hmem
  obtain ⟨i, a, ⟨ha, -⟩, t, -, rfl⟩ := hmem
  rw [Db.flags, List.getElem?_map, ha]
  rfl

theorem aggregationRun_extends :
    Respects (OnDb Extends) (aggregationRun rt config env limit useLock) :=
  aggregationRun_respects fun _ _ _ => Linked.extends

theorem aggregationRun_apart (h : ProbesApart w.db)
    (hapart : aggregatesApart rt config env limit useLock w = true) :
    ProbesApart (exec (aggregationRun rt config env limit useLock) w).2.db := by
  simp only [aggregatesApart, Bool.or_eq_true, or_assoc] at hapart
  unfold aggregationRun sqlLimit
  split
  · exact h
  · rename_i hlock
    replace hapart := hapart.resolve_left hlock
    split
    · rw [exec_bind_raise]
      exact h
    · rename_i hn
      replace hapart := hapart.resolve_left (by simpa using hn)
      rw [exec_bind_pure]
      cases hfault : env.fetchFault with
      | some e =>
        rw [fallible, exec_bind_raise]
        exact h
      | none =>
        rw [fallible, exec_bind_pure, exec_query_bind]
        have hstarts := hapart.resolve_left (by simp [hfault])
        refine Loop.run_rule_of_starts (fun (items : List PendingAlert) (w : World) =>
          ProbesApart w.db ∧ ∀ item ∈ items,
            w.db.flags[item.alertId]? = some (isProbeAlert item.alert))
          (fun w => ProbesApart w.db) (fun item items w created w' h hmerge hb => ?_)
          (fun item items w e w' h _ _ => ⟨h.1, fun i hi => h.2 i (List.mem_cons_of_mem _ hi)⟩)
          (fun _ _ h => h.1) ⟨h, fun item hi => flags_of_mem_fetchPending hi⟩ hstarts
        obtain ⟨created, w₁, hone, hc⟩ := exec_bind_ok.mp hb
        simp only [exec_fallible_bind_ok, exec_pure, Prod.mk.injEq] at hc
        obtain ⟨-, -, rfl⟩ := hc
        have hlinked := aggregateOne_linked hone
        refine ⟨h.1.linked (h.2 item List.mem_cons_self) hmerge hlinked, fun i hi => ?_⟩
        rw [hlinked.flags]
        exact h.2 i (List.mem_cons_of_mem _ hi)

end

namespace Docket

/-- The event keeps its status and its investigations; it may have been created meanwhile. -/
structure Spares (d d' : Docket) (e : ℕ) : Prop where
  status : d'.events[e]? = d.events[e]? ∨
    d.events[e]? = none ∧ d'.events[e]? = some .pendingReview
  investigations : d'.investigations.filter (·.eventId == e) =
    d.investigations.filter (·.eventId == e)

variable {d d' d'' : Docket} {e : ℕ} {k : ClockKind} {A : Act → Prop}

theorem Spares.trans (h : d.Spares d' e) (h' : d'.Spares d'' e) : d.Spares d'' e where
  status := by
    rcases h.status with heq | ⟨hnone, hnew⟩
    · rcases h'.status with heq' | ⟨hnone, hnew⟩
      · exact .inl (heq'.trans heq)
      · exact .inr ⟨heq.symm.trans hnone, hnew⟩
    · rcases h'.status with heq | ⟨hnone', -⟩
      · exact .inr ⟨hnone, heq.trans hnew⟩
      · rw [hnew] at hnone'
        cases hnone'
  investigations := h'.investigations.trans h.investigations

theorem Steps.spares (h : Steps k (· = .opened) d d') (e : ℕ) : d.Spares d' e := by
  refine h.rel (R := fun d d' => d.Spares d' e) (fun _ => ⟨.inl rfl, rfl⟩)
    (fun _ _ _ => Spares.trans) fun a d d' ha hs => ?_
  rcases ha with rfl | rfl
  · cases hs with
    | tick => exact ⟨.inl rfl, rfl⟩
  · cases hs with
    | opened =>
      refine ⟨?_, rfl⟩
      rcases lt_trichotomy e d.events.length with hlt | rfl | hgt
      · exact .inl (List.getElem?_append_left hlt)
      · exact .inr ⟨by simp, by simp⟩
      · refine .inl ?_
        rw [List.getElem?_eq_none hgt.le]
        exact List.getElem?_eq_none (by simpa [Nat.succ_le_iff] using hgt)

/-- Events are never removed. -/
theorem Steps.length_le (h : Steps k A d d') : d.events.length ≤ d'.events.length := by
  refine h.rel (R := fun d d' => d.events.length ≤ d'.events.length) (fun _ => le_rfl)
    (fun _ _ _ => le_trans) fun a d d' _ hs => ?_
  cases hs with
  | opened => simp
  | investigated => simp [investigate]
  | closed => simp
  | answered row reopen => cases reopen <;> simp [answer]
  | tick => exact le_rfl
  | moved => exact le_rfl
  | dispatched => exact le_rfl
  | filed => exact le_rfl
  | decided => exact le_rfl

end Docket

theorem Simulates.events_le {rt : Runtime} {A : Act → Prop} {w w' : World}
    (h : Simulates rt A w w') : w.db.events.length ≤ w'.db.events.length := by
  have hle := Steps.length_le h
  simpa [World.docket, Db.docket] using hle

/-- Rows are only added, and every event that does not hold a probe afterwards is spared. -/
structure SparesReal (w w' : World) : Prop where
  extends_ : Extends w.db w'.db
  spares : ∀ e, HoldsAlert w'.db true e ∨ w.docket.Spares w'.docket e

instance : Std.Refl SparesReal where
  refl _ := ⟨Std.Refl.refl _, fun _ => .inr ⟨.inl rfl, rfl⟩⟩

instance : IsTrans World SparesReal where
  trans _ _ _ h h' := by
    refine ⟨IsTrans.trans _ _ _ h.extends_ h'.extends_, fun e => ?_⟩
    rcases h.spares e with hp | hs
    · exact .inl (hp.extends h'.extends_)
    · rcases h'.spares e with hp | hs'
      · exact .inl hp
      · exact .inr (hs.trans hs')

section

variable {rt : Runtime} {config : HealthCheckConfig} {env : HealthCheckEnv}
  {scenario : HealthCheckScenario} {alertId : ℕ} {target : HealthCheckStage} {w w' : World}

theorem sparesReal_of_files (hk : KeepsLinks w.db w'.db) (hf : w'.db.files = w.db.files) :
    SparesReal w w' := by
  have hd : w'.docket = { w.docket with clock := w'.out.clock } := docket_eq_of_files hf _
  refine ⟨hk.extends, fun e => .inr ?_⟩
  rw [hd]
  exact ⟨.inl rfl, rfl⟩

theorem injectProbe_sparesReal : Respects SparesReal (injectProbe rt env scenario) := fun w =>
  sparesReal_of_files (@injectProbe_keepsLinks rt _ _ w) (@injectProbe_leaves rt _ _ w).db

theorem triageRun_sparesReal {config : TriageConfig} {env : TriageRunEnv} {limit : Option ℤ}
    {useLock : Bool} : Respects SparesReal (triageRun rt config env limit useLock) := fun w => by
  have hfiles : Respects (Leaves rt Db.files) (triageRun rt config env limit useLock) :=
    triageRun_leaves fun _ _ _ _ _ => rfl
  exact sparesReal_of_files (triageRun_keepsLinks w) (hfiles w).db

theorem aggregationRun_sparesReal {config : AggregationConfig} {env : AggregationRunEnv}
    {limit : Option ℤ} {useLock : Bool} :
    Respects SparesReal (aggregationRun rt config env limit useLock) := fun w =>
  ⟨aggregationRun_extends w, fun e => .inr (Steps.spares (aggregationRun_simulates w) e)⟩

theorem investigateProbe_keepsLinks :
    Respects (OnDb KeepsLinks) (investigateProbe rt config env alertId) := by
  have hintake : Respects (Keeps Db.intake) (investigateProbe rt config env alertId) := by
    refine (respects_query _).bind fun links => ?_
    split
    · exact respects_pure _
    · exact transaction_respects (investigateEvent_intake.bind fun _ => respects_fallible _)
  exact hintake.mono fun _ _ => keepsLinks_of_intake

theorem investigateProbe_sparesReal (hprobe : w.db.flags[alertId]? = some true) :
    SparesReal w (exec (investigateProbe rt config env alertId) w).2 := by
  have hk : KeepsLinks w.db (exec (investigateProbe rt config env alertId) w).2.db :=
    investigateProbe_keepsLinks w
  rw [investigateProbe, exec_query_bind] at hk ⊢
  split at hk
  · exact Std.Refl.refl _
  · rename_i link hfind
    rw [transaction, exec_atomically] at hk ⊢
    split at hk
    · rename_i u w' hr
      obtain ⟨start, w₁, hinv, hc⟩ := exec_bind_ok.mp hr
      obtain ⟨-, rfl⟩ := exec_fallible_ok.mp hc
      obtain ⟨s, f, result, db', -, -, -, -, hfiles, -, hdb⟩ := investigateEvent_ok hinv
      refine ⟨hk.extends, fun e => ?_⟩
      by_cases he : e = link.eventId
      · subst he
        refine .inl (HoldsAlert.extends ⟨link, List.mem_of_find?_eq_some hfind, rfl, ?_⟩ hk.extends)
        have halert := List.find?_some hfind
        rw [beq_iff_eq] at halert
        rw [halert]
        exact hprobe
      · have hd := @recordOutcome_docket _ _ _ _ _ f w₁.out.clock result hfiles
        rw [← hdb] at hd
        refine .inr ?_
        rw [World.docket, World.docket, hd]
        refine ⟨.inl ?_, ?_⟩
        · simp [investigate, Db.docket, Ne.symm he]
        · simp [investigate, Db.docket, List.filter_append, Ne.symm he]
    · rename_i error w' hr
      exact sparesReal_of_files hk rfl

theorem runToStage_sparesReal (hprobe : w.db.flags[alertId]? = some true) :
    SparesReal w (exec (runToStage rt config env alertId target) w).2 := by
  unfold runToStage
  split
  · exact Std.Refl.refl _
  · refine rel_bind (triageRun_sparesReal w) fun _ w₁ h₁ => ?_
    have hx₁ : SparesReal w w₁ := triageRun_sparesReal.of_exec h₁
    split
    · exact Std.Refl.refl _
    · refine rel_bind (aggregationRun_sparesReal w₁) fun _ w₂ h₂ => ?_
      have hx₂ : SparesReal w₁ w₂ := aggregationRun_sparesReal.of_exec h₂
      split
      · exact Std.Refl.refl _
      · refine investigateProbe_sparesReal ?_
        have hlen := Rows.lt_of_getElem? hprobe
        rw [flags_eq_of_grows (hx₁.extends_.flags.trans hx₂.extends_.flags) hlen]
        exact hprobe

theorem healthCheckRunOne_sparesReal :
    Respects SparesReal (healthCheckRunOne rt config env scenario) := fun w =>
  rel_bind (injectProbe_sparesReal w) fun _ _ h => runToStage_sparesReal (injectProbe_ok h).2

theorem healthCheckRun_sparesReal {runEnv : HealthCheckRunEnv}
    {scenarios : List HealthCheckScenario} {useLock : Bool} :
    Respects SparesReal (healthCheckRun rt config runEnv scenarios useLock) := by
  unfold healthCheckRun
  split
  · exact respects_pure _
  · exact Loop.respects_run (fun _ _ _ _ hb => healthCheckRunOne_sparesReal.of_exec hb)
      fun _ _ _ _ hb => healthCheckRunOne_sparesReal.of_exec hb

/-- The aggregation of a scenario, if it comes to one, merges apart. -/
def scenarioApart (rt : Runtime) (config : HealthCheckConfig) (runEnv : HealthCheckRunEnv)
    (w : World) (scenario : HealthCheckScenario) : Bool :=
  let env := runEnv.items scenario.name
  match exec (injectProbe rt env scenario) w with
  | (.error _, _) => true
  | (.ok _, w) =>
    if scenario.expectedStage = .ingestion then true
    else
      match exec (triageRun rt config.triage env.triage (some 50) false) w with
      | (.error _, _) => true
      | (.ok _, w) =>
        if scenario.expectedStage = .triage then true
        else aggregatesApart rt config.aggregation env.aggregation (some 50) false w

/--
Whenever the call aggregates an alert, the newest event of its key that awaits review holds no
alert of the other kind.
-/
def Label.mergesApart (rt : Runtime) (w : World) : Label → Bool
  | .aggregate config env limit useLock => aggregatesApart rt config env limit useLock w
  | .healthCheck config env scenarios useLock => useLock && !env.lockAcquired ||
    (healthCheckLoop rt config env).starts (scenarioApart rt config env) scenarios w
  | _ => true

theorem ProbesApart.respects {α : Type} {A : Act → Prop} {m : Session α}
    (hk : Respects (OnDb KeepsLinks) m) (hs : Respects (Simulates rt A) m) (h : ProbesApart w.db) :
    ProbesApart (exec m w).2.db :=
  h.keepsLinks (hk w) (hs w).events_le

theorem injectProbe_simulates :
    Respects (Simulates rt fun _ => False) (injectProbe rt env scenario) :=
  injectProbe_leaves.mono fun _ _ => Leaves.simulates

theorem triageRun_simulates {config : TriageConfig} {env : TriageRunEnv} {limit : Option ℤ}
    {useLock : Bool} :
    Respects (Simulates rt fun _ => False) (triageRun rt config env limit useLock) := by
  have hfiles : Respects (Leaves rt Db.files) (triageRun rt config env limit useLock) :=
    triageRun_leaves fun _ _ _ _ _ => rfl
  exact hfiles.mono fun _ _ => Leaves.simulates

theorem healthCheckRunOne_apart {runEnv : HealthCheckRunEnv} (h : ProbesApart w.db)
    (hapart : scenarioApart rt config runEnv w scenario = true) :
    ProbesApart
      (exec (healthCheckRunOne rt config (runEnv.items scenario.name) scenario) w).2.db := by
  have hinject := h.respects injectProbe_keepsLinks
    (@injectProbe_simulates rt (runEnv.items scenario.name) scenario)
  simp only [scenarioApart] at hapart
  rw [healthCheckRunOne, exec_bind]
  split
  · rename_i alertId w₁ h₁
    rw [h₁] at hapart hinject
    dsimp only at hapart
    unfold runToStage
    split
    · exact hinject
    · rename_i hstage
      rw [if_neg hstage] at hapart
      have htriage := hinject.respects triageRun_keepsLinks (@triageRun_simulates rt
        config.triage (runEnv.items scenario.name).triage (some 50) false)
      rw [exec_bind]
      split
      · rename_i r w₂ h₂
        rw [h₂] at hapart htriage
        dsimp only at hapart
        split
        · exact htriage
        · rename_i hstage'
          rw [if_neg hstage'] at hapart
          have haggregate := aggregationRun_apart htriage hapart
          rw [exec_bind]
          split
          · rename_i r w₃ h₃
            rw [h₃] at haggregate
            split
            · exact haggregate
            · exact haggregate.respects investigateProbe_keepsLinks investigateProbe_simulates
          · rename_i e w₃ h₃
            rw [h₃] at haggregate
            exact haggregate
      · rename_i e w₂ h₂
        rw [h₂] at htriage
        exact htriage
  · rename_i e w₁ h₁
    rw [h₁] at hinject
    exact hinject

theorem perform_apart (l : Label) (h : ProbesApart w.db) (hl : l.mergesApart rt w = true) :
    ProbesApart (exec (perform rt l) w).2.db := by
  have apart (hk : Respects (OnDb KeepsLinks) (perform rt l)) :
      ProbesApart (exec (perform rt l) w).2.db := h.respects hk (perform_simulates l)
  have intake {α : Type} {m : Session α} (hm : Respects (Keeps Db.intake) m) :
      Respects (OnDb KeepsLinks) m := hm.mono fun _ _ => keepsLinks_of_intake
  cases l with
  | configure settings => exact apart (intake (keeps_modify fun _ => rfl))
  | ingest env source maxBatches useLock =>
    exact apart ((runForSource_respects fun _ => runBatch_keepsLinks).map _)
  | triage config env limit useLock => exact apart (triageRun_keepsLinks.map _)
  | auditSample enabled env limit =>
    have hsample : Respects (Leaves rt fun db => (db.alerts, db.eventAlerts))
        (auditSampleRun enabled env limit) := auditSampleRun_leaves fun _ _ => rfl
    refine apart (Respects.map _ (hsample.mono fun w w' hw => ?_))
    obtain ⟨halerts, hlinks⟩ := Prod.mk.inj hw.db
    exact .of_eq (congrArg (List.map isProbeAlert) halerts) hlinks
  | investigate config env limit useLock =>
    exact apart (intake ((investigationRun_respects fun _ => investigateEvent_intake).map _))
  | review config env limit useLock =>
    exact apart (@keepsLinks_of_leaves rt _ _ (humanReviewRun_leaves.map _))
  | reply config env rawContent externalMsgId responder requestId =>
    exact apart (keepsLinks_of_leaves (handleReply_leaves.map _))
  | cancel commitFault requestId =>
    exact apart (@keepsLinks_of_leaves rt _ _ (cancelRequest_leaves.map _))
  | settle config env limit useLock =>
    exact apart (keepsLinks_of_leaves (assetPipelineRun_leaves.map _))
  | confirm now commitFault recordId action by_ =>
    exact apart (keepsLinks_of_leaves (decideDisposition_leaves.map _))
  | reject now commitFault recordId =>
    exact apart (keepsLinks_of_leaves (decideDisposition_leaves.map _))
  | aggregate config env limit useLock =>
    rw [perform, exec_map]
    exact aggregationRun_apart h hl
  | healthCheck config env scenarios useLock =>
    rw [perform, exec_map]
    simp only [Label.mergesApart, Bool.or_eq_true] at hl
    unfold healthCheckRun
    split
    · exact h
    · rename_i hlock
      have one {scenario : HealthCheckScenario} {w w' : World} {r : Except Exn Unit}
          (h : ProbesApart w.db) (hstart : scenarioApart rt config env w scenario = true)
          (hb : exec ((healthCheckLoop rt config env).body scenario) w = (r, w')) :
          ProbesApart w'.db := by
        have hone := healthCheckRunOne_apart h hstart
        change exec (healthCheckRunOne rt config (env.items scenario.name) scenario) w = _ at hb
        rwa [hb] at hone
      exact Loop.run_rule_of_starts (fun _ (w : World) => ProbesApart w.db)
        (fun w => ProbesApart w.db) (fun _ _ _ _ _ h hstart hb => one h hstart hb)
        (fun _ _ _ _ _ h hstart hb => one h hstart hb) (fun _ _ h => h) h (hl.resolve_left hlock)

theorem probesApart_of_reachable
    (h : (system rt {}).ReachableBy (fun w l => l.mergesApart rt w = true) w) :
    ProbesApart w.db := by
  refine h.invariant (I := fun w => ProbesApart w.db) probesApart_empty fun w l w' hw hl hstep => ?_
  obtain rfl := Option.some.inj hstep
  exact perform_apart l hw hl

/--
In every run in which an alert only ever meets alerts of its own kind in the event it is merged
into, no event holds both probes and real alerts, the filter of probe events passes every event
with a real alert, and a health check spares these events.
-/
theorem probe_isolation
    (h : (system rt {}).ReachableBy (fun w l => l.mergesApart rt w = true) w) :
    (∀ e, ¬(HoldsAlert w.db true e ∧ HoldsAlert w.db false e)) ∧
      (∀ e, HoldsAlert w.db false e → eventIsProbe w.db e = false) ∧
      ∀ config env scenarios useLock w',
        (Label.healthCheck config env scenarios useLock).mergesApart rt w = true →
        (system rt {}).step (.healthCheck config env scenarios useLock) w = some w' →
        ∀ e, HoldsAlert w'.db false e → w.docket.Spares w'.docket e := by
  have hw := probesApart_of_reachable h
  refine ⟨fun e he => hw.apart e he.1 he.2, fun e => hw.eventIsProbe, ?_⟩
  intro config env scenarios useLock w' hl hstep e hreal
  have hw' := probesApart_of_reachable (h.step hl hstep)
  have hspares : SparesReal w w' := by
    obtain rfl := Option.some.inj hstep
    exact healthCheckRun_sparesReal.map _ w
  rcases hspares.spares e with hprobe | hspared
  · exact absurd hreal (hw'.apart e hprobe)
  · exact hspared

/-- A real alert waits in an event, and the source of the probes is there. -/
def queuedRun : List Label :=
  [.configure {
      dataSources := [{ name := "siem" }, { name := healthProbeSourceName }]
      whitelistRules := []
      entityProfiles := []
      entityProfileMemories := []
      onDutyKnowledge := []
      sops := [] },
    .ingestAll 0 [sampleAlert "a-1"], .triageAll (hours 1), .aggregateAll (hours 2)]

/-- A health check of the whole chain with one payload. -/
def fullChain (payload : NormalizedAlert) : Label :=
  .healthCheck {} {
      items := fun _ => {
        normalized := .ok payload
        suffix := "0"
        injectedAt := hours 3
        triage := { items := fun _ => { dedupNow := hours 3 } }
        aggregation := { items := fun _ => { now := hours 3 } }
        investigation := {
          startedAt := hours 3
          agent := { chat := fun _ _ => .error .external, clock := fun _ => hours 3 }
          finishedAt := hours 3 } } }
    [{ name := "probe_full_chain", expectedStage := .fullChain }] true

/-- A payload with a host of its own. -/
def otherHost : NormalizedAlert := { sampleAlert "p-1" with hostName := some "probe-host" }

def queuedWorld : World :=
  ((system (sampleRuntime .increasing sampleDigests) {}).runIf
    (fun w l => l.mergesApart (sampleRuntime .increasing sampleDigests) w) queuedRun {}).getD {}

theorem queuedWorld_reachable : (system (sampleRuntime .increasing sampleDigests) {}).ReachableBy
    (fun w l => l.mergesApart (sampleRuntime .increasing sampleDigests) w = true) queuedWorld :=
  System.ReachableBy.runIf .init (System.runIf_getD (by decide +kernel))

/-- A probe of another host gets an event of its own, and the real event waits on. -/
theorem probe_isolation_other_host :
    ∃ w', (system (sampleRuntime .increasing sampleDigests) {}).step (fullChain otherHost)
        queuedWorld = some w' ∧
      w'.db.events.map (·.status) = [.pendingReview, .concluded] ∧
      queuedWorld.docket.Spares w'.docket 0 := by
  have hrun : (Tx.exec (perform (sampleRuntime .increasing sampleDigests) (fullChain otherHost))
          queuedWorld).2.db.events.map (·.status) = [.pendingReview, .concluded] ∧
      (fullChain otherHost).mergesApart (sampleRuntime .increasing sampleDigests) queuedWorld ∧
      HoldsAlert (Tx.exec (perform (sampleRuntime .increasing sampleDigests)
        (fullChain otherHost)) queuedWorld).2.db false 0 := by decide +kernel
  exact ⟨_, rfl, hrun.1,
    (probe_isolation queuedWorld_reachable).2.2 _ _ _ _ _ hrun.2.1 rfl 0 hrun.2.2⟩

/-- A probe with the key of the real alert joins its event, and the mock model concludes it. -/
theorem health_check_concludes_real_event :
    (system (sampleRuntime .increasing sampleDigests) {}).Reachable queuedWorld ∧
      HoldsAlert queuedWorld.db false 0 ∧
      queuedWorld.db.events.map (·.status) = [.pendingReview] ∧
      ∃ w', (system (sampleRuntime .increasing sampleDigests) {}).step
          (fullChain (sampleAlert "p-1")) queuedWorld = some w' ∧
        HoldsAlert w'.db true 0 ∧ HoldsAlert w'.db false 0 ∧
        w'.db.events.map (·.status) = [.concluded] ∧
        w'.db.investigations.map (·.eventId) = [0] ∧ eventIsProbe w'.db 0 = true := by
  have hqueued : HoldsAlert queuedWorld.db false 0 ∧
      queuedWorld.db.events.map (·.status) = [.pendingReview] := by decide +kernel
  refine ⟨queuedWorld_reachable.reachable, hqueued.1, hqueued.2, _, rfl, ?_⟩
  decide +kernel

end

end Minsight

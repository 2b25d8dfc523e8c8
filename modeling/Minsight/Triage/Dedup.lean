import Minsight.Foundation.Repeats
import Minsight.Triage.Effects

/-! # The dedup window

A transaction of triage finds the dedup group of its alert open or makes the alert the group's
representative. Over any sequence of transactions the group is the window of its fingerprint: an
alert is archived as a duplicate exactly within the window of the last representative.
-/

namespace Minsight

open Tx Session

def groupsOf (fingerprint : String) (groups : Rows AlertDedupGroup) :
    List (ℕ × AlertDedupGroup) :=
  groups.select fun _ g => g.fingerprint == fingerprint

def groupOf (fingerprint : String) (groups : Rows AlertDedupGroup) :
    Option (ℕ × AlertDedupGroup) :=
  (groupsOf fingerprint groups).head?

/-- What the dedup handler does to the groups: whether it hits, and the group of the alert. -/
inductive DedupStep (fingerprint : String) (now window : Time) (groups : Rows AlertDedupGroup) :
    Bool → ℕ → Rows AlertDedupGroup → Prop
  | opened (hnone : groupOf fingerprint groups = none) :
      DedupStep fingerprint now window groups false groups.length (groups ++ [{
        fingerprint
        firstSeenAt := now
        lastSeenAt := now
        windowStart := now
        windowEnd := now + window }])
  | repeated {gid g} (hgroup : groupOf fingerprint groups = some (gid, g))
      (hopen : now ≤ g.windowEnd ∧ g.representativeAlertId.isSome) :
      DedupStep fingerprint now window groups true gid (groups.modify gid fun g =>
        { g with occurrenceCount := g.occurrenceCount + 1, lastSeenAt := now })
  | renewed {gid g} (hgroup : groupOf fingerprint groups = some (gid, g))
      (hover : ¬ (now ≤ g.windowEnd ∧ g.representativeAlertId.isSome)) :
      DedupStep fingerprint now window groups false gid (groups.modify gid fun g =>
        { g.renewed now window with lastSeenAt := now })

structure KeepsDedup (ctx ctx' : TriageContext) : Prop where
  hit : ctx'.dedupHit = ctx.dedupHit
  group : ctx'.dedupGroupId = ctx.dedupGroupId
  representative : ctx'.isRepresentative = ctx.isRepresentative

section

variable {rt : Runtime} {config : TriageConfig} {env : TriageEnv} {ctx c : TriageContext}
  {alert : AlertSnapshot} {w w' : World}

theorem KeepsDedup.refl (ctx : TriageContext) : KeepsDedup ctx ctx := ⟨rfl, rfl, rfl⟩

theorem KeepsDedup.trans {c₁ c₂ c₃ : TriageContext} (h : KeepsDedup c₁ c₂) (h' : KeepsDedup c₂ c₃) :
    KeepsDedup c₁ c₃ :=
  ⟨h'.hit.trans h.hit, h'.group.trans h.group, h'.representative.trans h.representative⟩

theorem dedupHandle_ok (h : exec (dedupHandle rt config env { alert }) w = (.ok c, w')) :
    ∃ gid groups, DedupStep alert.row.fingerprint (rt.clock.reading w.out.clock env.dedupNow)
        (minutes config.dedupWindowMinutes) w.db.alertDedupGroups c.dedupHit gid groups ∧
      w'.db = { w.db with alertDedupGroups := groups } ∧ c.dedupGroupId = some gid ∧
      c.isRepresentative = !c.dedupHit := by
  simp only [dedupHandle, exec_utcNow_bind, exec_fallible_bind_ok, exec_query_bind] at h
  obtain ⟨-, h⟩ := h
  split at h
  case h_1 hnone =>
    simp only [exec_modify_bind, exec_pure, Prod.mk.injEq, Except.ok.injEq] at h
    obtain ⟨rfl, rfl⟩ := h
    exact ⟨_, _, .opened hnone, rfl, rfl, rfl⟩
  case h_2 gid g hgroup =>
    split at h
    case isTrue hopen =>
      simp only [exec_modify_bind, exec_pure, Prod.mk.injEq, Except.ok.injEq] at h
      obtain ⟨rfl, rfl⟩ := h
      exact ⟨_, _, .repeated hgroup hopen, rfl, rfl, rfl⟩
    case isFalse hover =>
      simp only [exec_modify_bind, exec_pure, Prod.mk.injEq, Except.ok.injEq] at h
      obtain ⟨rfl, rfl⟩ := h
      exact ⟨_, _, .renewed hgroup hover, rfl, rfl, rfl⟩

theorem whitelistHandle_keepsDedup : Returns (KeepsDedup ctx) (whitelistHandle rt env ctx) := by
  unfold whitelistHandle
  split
  · exact returns_pure (.refl ctx)
  · refine returns_bind fun now => returns_bind fun _ => returns_bind fun rules => ?_
    split
    · exact returns_raise _
    · exact returns_pure (.refl ctx)
    · exact returns_pure ⟨rfl, rfl, rfl⟩

theorem profileHintHandle_keepsDedup :
    Returns (KeepsDedup ctx) (profileHintHandle rt config env ctx) := by
  unfold profileHintHandle
  split
  · exact returns_pure (.refl ctx)
  · exact returns_bind fun _ => returns_bind fun _ => returns_bind fun _ =>
      returns_pure ⟨rfl, rfl, rfl⟩

theorem ruleScoreHandle_keepsDedup :
    Returns (KeepsDedup ctx) (ruleScoreHandle rt config env ctx) := by
  unfold ruleScoreHandle
  split
  · exact returns_pure (.refl ctx)
  · exact returns_bind fun _ => returns_bind fun _ => returns_bind fun _ =>
      returns_pure ⟨rfl, rfl, rfl⟩

theorem llmAssistHandle_keepsDedup :
    Returns (KeepsDedup ctx) (llmAssistHandle rt config env ctx) := by
  refine returns_bind fun calls => ?_
  split
  · exact returns_pure (.refl ctx)
  · split
    · exact returns_pure (.refl ctx)
    · split
      · exact returns_pure (.refl ctx)
      · refine returns_bind fun score => returns_pure ?_
        cases score with
        | none => exact ⟨rfl, rfl, rfl⟩
        | some q => exact ⟨rfl, rfl, rfl⟩

theorem routeHandle_keepsDedup : KeepsDedup ctx (routeHandle config env ctx) := by
  unfold routeHandle
  split
  · exact .refl ctx
  · exact ⟨rfl, rfl, rfl⟩

theorem pipelineRun_ok (h : exec (pipelineRun rt config env { alert }) w = (.ok c, w')) :
    ∃ gid groups route now, DedupStep alert.row.fingerprint
        (rt.clock.reading w.out.clock env.dedupNow) (minutes config.dedupWindowMinutes)
        w.db.alertDedupGroups c.dedupHit gid groups ∧
      RouteAgrees alert c ∧ c.dedupGroupId = some gid ∧ c.isRepresentative = !c.dedupHit ∧
      c.routeDecision = some route ∧ (w.db.alerts[alert.id]?).isSome ∧
      (∀ t ∈ w.db.triageResults, t.alertId ≠ alert.id) ∧
      w'.db = recordTriage c route now { w.db with alertDedupGroups := groups } := by
  obtain ⟨c₁, w₁, h₁, h⟩ := exec_bind_ok.mp h
  obtain ⟨c₂, w₂, h₂, h⟩ := exec_bind_ok.mp h
  obtain ⟨c₃, w₃, h₃, h⟩ := exec_bind_ok.mp h
  obtain ⟨c₄, w₄, h₄, h⟩ := exec_bind_ok.mp h
  obtain ⟨c₅, w₅, h₅, h⟩ := exec_bind_ok.mp h
  have hroute : RouteAgrees alert (routeHandle config env c₅) :=
    routeHandle_agrees (llmAssistHandle_returns (ruleScoreHandle_returns
      (profileHintHandle_returns (whitelistHandle_returns (dedupHandle_returns _ _ _ h₁) _ _ _ h₂)
        _ _ _ h₃) _ _ _ h₄) _ _ _ h₅)
  have hkeeps : KeepsDedup c₁ (routeHandle config env c₅) :=
    ((((whitelistHandle_keepsDedup _ _ _ h₂).trans (profileHintHandle_keepsDedup _ _ _ h₃)).trans
      (ruleScoreHandle_keepsDedup _ _ _ h₄)).trans (llmAssistHandle_keepsDedup _ _ _ h₅)).trans
      routeHandle_keepsDedup
  have hdb : w₅.db = w₁.db := by
    have d₂ : Keeps id w₁ w₂ := (whitelistHandle_respects allowsClock_onDb).of_exec h₂
    have d₃ : Keeps id w₂ w₃ := (profileHintHandle_respects allowsClock_onDb).of_exec h₃
    have d₄ : Keeps id w₃ w₄ := (ruleScoreHandle_respects allowsScoring_keeps).of_exec h₄
    have d₅ : Keeps id w₄ w₅ := (llmAssistHandle_respects allowsAssist_keeps).of_exec h₅
    exact d₅.trans (d₄.trans (d₃.trans d₂))
  obtain ⟨rfl, route, hdecision, hsome, hfresh, hrecord⟩ := persistHandle_ok h
  obtain ⟨gid, groups, hstep, hdb₁, hgid, hrep⟩ := dedupHandle_ok h₁
  rw [hdb, hdb₁] at hsome hfresh hrecord
  rw [hroute.alert] at hsome hfresh
  rw [← hkeeps.hit] at hstep hrep
  exact ⟨gid, groups, route, _, hstep, hroute, hkeeps.group.trans hgid,
    hkeeps.representative.trans hrep, hdecision, hsome, hfresh, hrecord⟩

end

structure GroupIs (window : Time) (p : Opening ℕ Time) (g : AlertDedupGroup) : Prop where
  representative : g.representativeAlertId = some p.key
  windowEnd : g.windowEnd = p.since + window
  count : g.occurrenceCount = 1 + p.repeats

/-- The groups of a fingerprint: none before the first opening, and then one. -/
def GroupsAre (window : Time) (fingerprint : String) (groups : Rows AlertDedupGroup) :
    Option (Opening ℕ Time) → Prop
  | none => groupsOf fingerprint groups = []
  | some p => ∃ gid g, groupsOf fingerprint groups = [(gid, g)] ∧ GroupIs window p g

section

variable {fp fp' : String} {now window : Time} {groups groups' : Rows AlertDedupGroup} {hit : Bool}
  {gid : ℕ} {o : Option (Opening ℕ Time)} {c : TriageContext}

theorem representGroup_hit (h : c.isRepresentative = false) : representGroup c groups = groups := by
  unfold representGroup
  split <;> simp [h]

theorem representGroup_new (hgid : c.dedupGroupId = some gid) (h : c.isRepresentative = true) :
    representGroup c groups = groups.modify gid fun g => { g with
      representativeAlertId := g.representativeAlertId.or (some c.alert.id) } := by
  simp only [representGroup, hgid, h, if_true]
  apply Rows.update_congr
  rintro g -
  cases g.representativeAlertId <;> rfl

theorem groupsOf_update {f : AlertDedupGroup → AlertDedupGroup}
    (h : ∀ g, (f g).fingerprint = g.fingerprint) :
    groupsOf fp (groups.modify gid f) =
      (groupsOf fp groups).map fun r => (r.1, if r.1 = gid then f r.2 else r.2) :=
  Rows.select_update fun g => by rw [h]

theorem groupsOf_update_other {f : AlertDedupGroup → AlertDedupGroup}
    (h : ∀ g, (f g).fingerprint = g.fingerprint)
    (hother : ∀ g, groups[gid]? = some g → g.fingerprint ≠ fp) :
    groupsOf fp (groups.modify gid f) = groupsOf fp groups := by
  rw [groupsOf_update h]
  refine (List.map_congr_left ?_).trans (List.map_id _)
  rintro ⟨k, g⟩ hmem
  obtain ⟨hrow, hg⟩ := Rows.mem_select.mp hmem
  by_cases hk : k = gid
  · subst hk
    exact absurd (beq_iff_eq.mp hg) (hother g hrow)
  · simp [hk]

theorem groupsOf_update_self {f : AlertDedupGroup → AlertDedupGroup} {g : AlertDedupGroup}
    (h : ∀ g, (f g).fingerprint = g.fingerprint) (hgroups : groupsOf fp groups = [(gid, g)]) :
    groupsOf fp (groups.modify gid f) = [(gid, f g)] := by
  simp [groupsOf_update h, hgroups]

theorem groupsOf_represented {g : AlertDedupGroup} (hgid : c.dedupGroupId = some gid)
    (hrep : c.isRepresentative = true) (hgroups : groupsOf fp groups = [(gid, g)]) :
    groupsOf fp (representGroup c groups) = [(gid, { g with
      representativeAlertId := g.representativeAlertId.or (some c.alert.id) })] := by
  rw [representGroup_new hgid hrep]
  exact groupsOf_update_self (fun _ => rfl) hgroups

theorem AlertDedupGroup.renewed_fingerprint (g : AlertDedupGroup) :
    (g.renewed now window).fingerprint = g.fingerprint := by
  unfold AlertDedupGroup.renewed
  split <;> rfl

theorem GroupsAre.group {g : AlertDedupGroup} (h : GroupsAre window fp groups o)
    (hgroup : groupOf fp groups = some (gid, g)) :
    groupsOf fp groups = [(gid, g)] ∧ ∃ p, o = some p ∧ GroupIs window p g := by
  cases o with
  | none =>
    rw [groupOf, show groupsOf fp groups = [] from h] at hgroup
    cases hgroup
  | some p =>
    obtain ⟨gid', g', hgroups, hg⟩ := h
    rw [groupOf, hgroups] at hgroup
    obtain ⟨rfl, rfl⟩ : gid' = gid ∧ g' = g := by simpa using hgroup
    exact ⟨hgroups, p, rfl, hg⟩

theorem GroupsAre.step (h : GroupsAre window fp groups o)
    (hstep : DedupStep fp now window groups hit gid groups') (hgid : c.dedupGroupId = some gid)
    (hrep : c.isRepresentative = !hit) :
    (hit = true ∧ ∃ p, o = some p ∧ now ≤ p.since + window ∧
        GroupsAre window fp (representGroup c groups')
          (some { p with repeats := p.repeats + 1 })) ∨
      (hit = false ∧ (∀ p, o = some p → ¬ now ≤ p.since + window) ∧
        GroupsAre window fp (representGroup c groups') (some ⟨c.alert.id, now, 0⟩)) := by
  cases hstep with
  | opened hnone =>
    right
    cases o with
    | some p =>
      obtain ⟨gid, g, hgroups, -⟩ := h
      rw [groupOf, hgroups] at hnone
      cases hnone
    | none =>
      refine ⟨rfl, by simp, ?_⟩
      have hgroups := Rows.select_insert (fun _ g => g.fingerprint == fp) groups
        { fingerprint := fp, firstSeenAt := now, lastSeenAt := now, windowStart := now
          windowEnd := now + window }
      rw [show Rows.select (fun _ g => g.fingerprint == fp) groups = [] from h, beq_self_eq_true,
        if_pos rfl, List.nil_append] at hgroups
      exact ⟨_, _, groupsOf_represented hgid hrep hgroups, rfl, rfl, rfl⟩
  | @repeated gid g hgroup hopen =>
    left
    obtain ⟨hgroups, p, rfl, hg⟩ := h.group hgroup
    rw [representGroup_hit hrep]
    refine ⟨rfl, p, rfl, by rw [← hg.windowEnd]; exact hopen.1, gid, _,
      groupsOf_update_self (fun _ => rfl) hgroups, hg.representative, hg.windowEnd, ?_⟩
    simp only [hg.count]
    omega
  | @renewed gid g hgroup hover =>
    right
    obtain ⟨hgroups, p, rfl, hg⟩ := h.group hgroup
    have hout : g.windowEnd < now := by
      rw [hg.representative] at hover
      simpa using hover
    refine ⟨rfl, ?_, ?_⟩
    · rintro p' ⟨⟩
      rw [← hg.windowEnd]
      exact not_le.mpr hout
    · have hupdate := groupsOf_update_self
        (f := fun g => { g.renewed now window with lastSeenAt := now })
        (fun g => g.renewed_fingerprint) hgroups
      refine ⟨_, _, groupsOf_represented hgid hrep hupdate, ?_, ?_, ?_⟩ <;>
        simp [AlertDedupGroup.renewed, hout]

theorem DedupStep.fingerprint (h : DedupStep fp now window groups hit gid groups')
    (g : AlertDedupGroup) (hg : groups'[gid]? = some g) : g.fingerprint = fp := by
  cases h with
  | opened hnone =>
    obtain rfl : _ = g := by simpa using hg
    rfl
  | repeated hgroup hopen =>
    obtain ⟨hrow, hfp⟩ := Rows.mem_select.mp (List.mem_of_mem_head? hgroup)
    rw [List.getElem?_modify_eq, hrow] at hg
    obtain rfl := Option.some.inj hg
    exact beq_iff_eq.mp hfp
  | renewed hgroup hover =>
    obtain ⟨hrow, hfp⟩ := Rows.mem_select.mp (List.mem_of_mem_head? hgroup)
    rw [List.getElem?_modify_eq, hrow] at hg
    obtain rfl := Option.some.inj hg
    exact (AlertDedupGroup.renewed_fingerprint _).trans (beq_iff_eq.mp hfp)

theorem DedupStep.groupsOf_other (h : DedupStep fp' now window groups hit gid groups')
    (hne : fp' ≠ fp) : groupsOf fp groups' = groupsOf fp groups := by
  have hother {g} (hgroup : groupOf fp' groups = some (gid, g)) :
      ∀ g, groups[gid]? = some g → g.fingerprint ≠ fp := by
    intro g' hg'
    obtain ⟨hrow, hfp⟩ := Rows.mem_select.mp (List.mem_of_mem_head? hgroup)
    obtain rfl : g = g' := Option.some.inj (hrow.symm.trans hg')
    rw [beq_iff_eq.mp hfp]
    exact hne
  cases h with
  | opened hnone =>
    rw [groupsOf, Rows.select_insert, if_neg (by simpa using hne), List.append_nil]
    rfl
  | repeated hgroup hopen => exact groupsOf_update_other (fun _ => rfl) (hother hgroup)
  | renewed hgroup hover =>
    exact groupsOf_update_other (fun g => g.renewed_fingerprint) (hother hgroup)

theorem GroupsAre.other {window' : Time} (h : GroupsAre window fp groups o) (hne : fp' ≠ fp)
    (hstep : DedupStep fp' now window' groups hit gid groups') (hgid : c.dedupGroupId = some gid)
    (hrep : c.isRepresentative = !hit) : GroupsAre window fp (representGroup c groups') o := by
  have hsame : groupsOf fp (representGroup c groups') = groupsOf fp groups := by
    cases hit with
    | true => rw [representGroup_hit hrep, hstep.groupsOf_other hne]
    | false =>
      have hother : ∀ g, groups'[gid]? = some g → g.fingerprint ≠ fp := by
        intro g hg
        rw [hstep.fingerprint g hg]
        exact hne
      rw [representGroup_new hgid hrep, ← hstep.groupsOf_other hne]
      exact groupsOf_update_other (fun _ => rfl) hother
  cases o with
  | none => exact hsame.trans h
  | some p =>
    obtain ⟨gid', g, hgroups, hg⟩ := h
    exact ⟨gid', g, hsame.trans hgroups, hg⟩

end

/-- What runs between two transactions leaves to triage. -/
structure BetweenTriage (w w' : World) : Prop where
  groups : w'.db.alertDedupGroups = w.db.alertDedupGroups
  results : w'.db.triageResults = w.db.triageResults
  fingerprints : ∀ (i : ℕ) (a : Alert), w.db.alerts[i]? = some a →
    ∃ a' : Alert, w'.db.alerts[i]? = some a' ∧ a'.fingerprint = a.fingerprint

def LoadedFrom (db : Db) (alert : AlertSnapshot) : Prop :=
  ∃ a, db.alerts[alert.id]? = some a ∧ a.fingerprint = alert.row.fingerprint

/--
Transactions of triage with a window of `n` minutes, committed or rolled back, and what is noted
of the committed ones of a fingerprint: the alert, the time of its dedup and whether it is routed
as a duplicate. Between two transactions other services run.
-/
inductive TriageHistory (rt : Runtime) (n : ℤ) (fingerprint : String)
    (between : World → World → Prop) (w₀ : World) : List (Arrival ℕ Time) → World → Prop
  | start : TriageHistory rt n fingerprint between w₀ [] w₀
  | committed {log w w' config env alert ctx}
      (h : TriageHistory rt n fingerprint between w₀ log w)
      (hwindow : config.dedupWindowMinutes = n) (hloaded : LoadedFrom w.db alert)
      (hrun : exec (pipelineRun rt config env { alert }) w = (.ok ctx, w'))
      (hfp : alert.row.fingerprint = fingerprint) :
      TriageHistory rt n fingerprint between w₀ (log ++ [{
        key := alert.id
        time := rt.clock.reading w.out.clock env.dedupNow
        repeated := ctx.routeDecision = some .archiveDedup }]) w'
  | other {log w w' config env alert ctx} (h : TriageHistory rt n fingerprint between w₀ log w)
      (hrun : exec (pipelineRun rt config env { alert }) w = (.ok ctx, w'))
      (hfp : alert.row.fingerprint ≠ fingerprint) :
      TriageHistory rt n fingerprint between w₀ log w'
  | rolledBack {log w config env alert} (h : TriageHistory rt n fingerprint between w₀ log w) :
      TriageHistory rt n fingerprint between w₀ log
        (Session.rollback w (exec (pipelineRun rt config env { alert }) w).2)
  | between {log w w'} (h : TriageHistory rt n fingerprint between w₀ log w)
      (hbetween : between w w') : TriageHistory rt n fingerprint between w₀ log w'

/-- The alert has the fingerprint and is triaged, and not as a duplicate. -/
structure Represents (fingerprint : String) (db : Db) (i : ℕ) : Prop where
  alert : ∃ a, db.alerts[i]? = some a ∧ a.fingerprint = fingerprint
  triaged : ∃ t ∈ db.triageResults, t.alertId = i
  fresh : ∀ t ∈ db.triageResults, t.alertId = i →
    t.dedupHit = false ∧ t.routeDecision ≠ .archiveDedup

/-- The law of the dedup window of a fingerprint. -/
structure DedupLaw (window : Time) (fingerprint : String) (log : List (Arrival ℕ Time)) (db : Db) :
    Prop where
  /-- The route of an alert is noted as it is stored. -/
  recorded : ∀ e ∈ log, ∃ t ∈ db.triageResults, t.alertId = e.key ∧
    (t.routeDecision = .archiveDedup ↔ e.repeated = true)
  archived_iff : ∀ before e after, log = before ++ e :: after →
    (e.repeated = true ↔ ∃ r, lastOpening before = some r ∧ e.time ≤ r.time + window)
  apart : (openings log).IsChain fun r r' => r.time + window < r'.time
  noGroup : lastOpening log = none → groupsOf fingerprint db.alertDedupGroups = []
  group : ∀ r, lastOpening log = some r → ∃ gid g,
    groupsOf fingerprint db.alertDedupGroups = [(gid, g)] ∧
      g.representativeAlertId = some r.key ∧ g.occurrenceCount = 1 + repeatsSince log
  represents : ∀ gid g i, (gid, g) ∈ groupsOf fingerprint db.alertDedupGroups →
    g.representativeAlertId = some i → Represents fingerprint db i

structure DedupHeld (window : Time) (fingerprint : String) (log : List (Arrival ℕ Time))
    (o : Option (Opening ℕ Time)) (db : Db) : Prop where
  repeats : Repeats window log o
  recorded : ∀ e ∈ log, ∃ t ∈ db.triageResults, t.alertId = e.key ∧
    (t.routeDecision = .archiveDedup ↔ e.repeated = true)
  groups : GroupsAre window fingerprint db.alertDedupGroups o
  represents : ∀ p, o = some p → Represents fingerprint db p.key

section

variable {rt : Runtime} {n : ℤ} {config : TriageConfig} {env : TriageEnv} {c : TriageContext}
  {alert : AlertSnapshot} {w w' w₀ : World} {window : Time} {fp : String} {i : ℕ}
  {log : List (Arrival ℕ Time)} {o : Option (Opening ℕ Time)} {db : Db}
  {others : World → World → Prop}

theorem DedupHeld.law (h : DedupHeld window fp log o db) : DedupLaw window fp log db where
  recorded := h.recorded
  archived_iff before e after hlog := by
    have hrepeats := h.repeats
    rw [hlog] at hrepeats
    exact hrepeats.repeated_iff
  apart := h.repeats.apart.imp fun _ _ hlt => not_le.mp hlt
  noGroup hnone := by
    have hgroups := h.groups
    rw [← h.repeats.opening, openingOf, hnone] at hgroups
    exact hgroups
  group r hr := by
    have hgroups := h.groups
    rw [← h.repeats.opening, openingOf, hr] at hgroups
    obtain ⟨gid, g, hg, his⟩ := hgroups
    exact ⟨gid, g, hg, his.representative, his.count⟩
  represents gid g i hmem hi := by
    have hgroups := h.groups
    cases o with
    | none =>
      rw [show groupsOf fp db.alertDedupGroups = [] from hgroups] at hmem
      cases hmem
    | some p =>
      obtain ⟨gid', g', hg, his⟩ := hgroups
      rw [hg] at hmem
      obtain ⟨rfl, rfl⟩ : gid = gid' ∧ g = g' := by simpa using hmem
      obtain rfl : p.key = i := Option.some.inj (his.representative.symm.trans hi)
      exact h.represents p rfl

theorem getElem?_routed (c : TriageContext) (route : RouteDecision) {a : Alert}
    (ha : db.alerts[i]? = some a) (j : ℕ) :
    ∃ a' : Alert, (db.alerts.modify j (routedAlert c route))[i]? = some a' ∧
      a'.fingerprint = a.fingerprint := by
  by_cases hj : j = i
  · subst hj
    refine ⟨routedAlert c route a, ?_, rfl⟩
    rw [List.getElem?_modify_eq, ha]
    rfl
  · exact ⟨a, by simp [hj, ha], rfl⟩

theorem Represents.record {route : RouteDecision} {now : Time} {groups : Rows AlertDedupGroup}
    (h : Represents fp db i) (hfresh : ∀ t ∈ db.triageResults, t.alertId ≠ c.alert.id) :
    Represents fp (recordTriage c route now { db with alertDedupGroups := groups }) i where
  alert := by
    obtain ⟨a, ha, hfp⟩ := h.alert
    obtain ⟨a', ha', hfp'⟩ := getElem?_routed c route ha c.alert.id
    exact ⟨a', ha', hfp'.trans hfp⟩
  triaged := by
    obtain ⟨t, ht, hi⟩ := h.triaged
    exact ⟨t, List.mem_append_left _ ht, hi⟩
  fresh t ht hi := by
    obtain ⟨t', ht', hi'⟩ := h.triaged
    rcases List.mem_append.mp ht with ht | ht
    · exact h.fresh t ht hi
    · obtain rfl := List.mem_singleton.mp ht
      exact absurd (hi'.trans hi.symm) (hfresh t' ht')

/-- An alert that is persisted and was no duplicate can represent its fingerprint. -/
theorem represents_new {route : RouteDecision} {now : Time} {groups : Rows AlertDedupGroup}
    (hagrees : RouteAgrees alert c) (hroute : c.routeDecision = some route)
    (hloaded : LoadedFrom db alert) (hfresh : ∀ t ∈ db.triageResults, t.alertId ≠ alert.id)
    (hhit : c.dedupHit = false) : Represents alert.row.fingerprint
      (recordTriage c route now { db with alertDedupGroups := groups }) alert.id where
  alert := by
    obtain ⟨a, ha, hfp⟩ := hloaded
    obtain ⟨a', ha', hfp'⟩ := getElem?_routed c route ha c.alert.id
    exact ⟨a', ha', hfp'.trans hfp⟩
  triaged := by
    refine ⟨_, List.mem_append_right _ (List.mem_singleton_self _), ?_⟩
    exact congrArg AlertSnapshot.id hagrees.alert
  fresh t ht hi := by
    rcases List.mem_append.mp ht with ht | ht
    · exact absurd hi (hfresh t ht)
    · obtain rfl := List.mem_singleton.mp ht
      have hdedup := hagrees.dedup
      rw [hhit, hroute] at hdedup
      exact ⟨hhit, fun hne => Bool.false_ne_true (hdedup.mpr (congrArg some hne))⟩

theorem Represents.between (h : Represents fp w.db i) (hbetween : BetweenTriage w w') :
    Represents fp w'.db i where
  alert := by
    obtain ⟨a, ha, hfp⟩ := h.alert
    obtain ⟨a', ha', hfp'⟩ := hbetween.fingerprints i a ha
    exact ⟨a', ha', hfp'.trans hfp⟩
  triaged := by
    rw [hbetween.results]
    exact h.triaged
  fresh := by
    rw [hbetween.results]
    exact h.fresh

theorem DedupHeld.committed (h : DedupHeld (minutes config.dedupWindowMinutes) fp log o w.db)
    (hloaded : LoadedFrom w.db alert)
    (hrun : exec (pipelineRun rt config env { alert }) w = (.ok c, w'))
    (hfp : alert.row.fingerprint = fp) :
    ∃ o', DedupHeld (minutes config.dedupWindowMinutes) fp (log ++ [{
      key := alert.id
      time := rt.clock.reading w.out.clock env.dedupNow
      repeated := c.routeDecision = some .archiveDedup }]) o' w'.db := by
  obtain ⟨gid, groups, route, now, hstep, hagrees, hgid, hrep, hroute, -, hfresh, hdb⟩ :=
    pipelineRun_ok hrun
  have hfresh' : ∀ t ∈ w.db.triageResults, t.alertId ≠ c.alert.id := by
    rw [hagrees.alert]
    exact hfresh
  have hrecorded : ∀ repeated : Bool, (repeated = true ↔ route = .archiveDedup) →
      ∀ e ∈ log ++ [(⟨alert.id, rt.clock.reading w.out.clock env.dedupNow, repeated⟩ :
        Arrival ℕ Time)], ∃ t ∈ w'.db.triageResults, t.alertId = e.key ∧
          (t.routeDecision = .archiveDedup ↔ e.repeated = true) := by
    intro repeated hiff e he
    rw [hdb]
    rcases List.mem_append.mp he with he | he
    · obtain ⟨t, ht, hkey, ht'⟩ := h.recorded e he
      exact ⟨t, List.mem_append_left _ ht, hkey, ht'⟩
    · obtain rfl := List.mem_singleton.mp he
      refine ⟨_, List.mem_append_right _ (List.mem_singleton_self _), ?_, hiff.symm⟩
      exact congrArg AlertSnapshot.id hagrees.alert
  have hdedup : decide (c.routeDecision = some .archiveDedup) = c.dedupHit := by
    rw [Bool.eq_iff_iff, decide_eq_true_iff]
    exact hagrees.dedup.symm
  have hnoted : c.dedupHit = true ↔ route = .archiveDedup := by
    rw [hagrees.dedup, hroute, Option.some.injEq]
  rw [hfp] at hstep
  rw [hdedup]
  rcases h.groups.step hstep hgid hrep with ⟨hhit, p, rfl, hin, hgroups⟩ | ⟨hhit, hout, hgroups⟩
  · rw [hhit] at hnoted ⊢
    refine ⟨_, .repeated h.repeats hin, hrecorded true hnoted, by rw [hdb]; exact hgroups, ?_⟩
    rintro _ ⟨⟩
    rw [hdb]
    exact (h.represents p rfl).record hfresh'
  · rw [hhit] at hnoted ⊢
    rw [hagrees.alert] at hgroups
    refine ⟨_, .opened h.repeats hout, hrecorded false hnoted, by rw [hdb]; exact hgroups, ?_⟩
    rintro _ ⟨⟩
    rw [hdb, ← hfp]
    exact represents_new hagrees hroute hloaded hfresh hhit

theorem DedupHeld.other (h : DedupHeld window fp log o w.db)
    (hrun : exec (pipelineRun rt config env { alert }) w = (.ok c, w'))
    (hfp : alert.row.fingerprint ≠ fp) : DedupHeld window fp log o w'.db := by
  obtain ⟨gid, groups, route, now, hstep, hagrees, hgid, hrep, hroute, -, hfresh, hdb⟩ :=
    pipelineRun_ok hrun
  rw [hdb]
  constructor
  case repeats => exact h.repeats
  case recorded =>
    intro e he
    obtain ⟨t, ht, hkey, hiff⟩ := h.recorded e he
    exact ⟨t, List.mem_append_left _ ht, hkey, hiff⟩
  case groups => exact h.groups.other hfp hstep hgid hrep
  case represents =>
    intro p hp
    apply (h.represents p hp).record
    rw [hagrees.alert]
    exact hfresh

theorem DedupHeld.between (h : DedupHeld window fp log o w.db) (hbetween : BetweenTriage w w') :
    DedupHeld window fp log o w'.db where
  repeats := h.repeats
  recorded := by
    rw [hbetween.results]
    exact h.recorded
  groups := by
    rw [hbetween.groups]
    exact h.groups
  represents p hp := (h.represents p hp).between hbetween

theorem dedupHeld_of_history (hother : ∀ w w', others w w' → BetweenTriage w w')
    (hnew : ∀ g ∈ w₀.db.alertDedupGroups, g.fingerprint ≠ fp)
    (h : TriageHistory rt n fp others w₀ log w) : ∃ o, DedupHeld (minutes n) fp log o w.db := by
  induction h with
  | start =>
    refine ⟨none, .nil, fun _ he => absurd he List.not_mem_nil, ?_, fun _ hp => nomatch hp⟩
    apply List.eq_nil_iff_forall_not_mem.mpr
    rintro ⟨k, g⟩ hmem
    obtain ⟨hrow, hg⟩ := Rows.mem_select.mp hmem
    exact hnew g (List.mem_of_getElem? hrow) (beq_iff_eq.mp hg)
  | committed h hwindow hloaded hrun hfp ih =>
    obtain ⟨o, ho⟩ := ih
    subst hwindow
    exact ho.committed hloaded hrun hfp
  | other h hrun hfp ih =>
    obtain ⟨o, ho⟩ := ih
    exact ⟨o, ho.other hrun hfp⟩
  | rolledBack h ih => exact ih
  | between h hbetween ih =>
    obtain ⟨o, ho⟩ := ih
    exact ⟨o, ho.between (hother _ _ hbetween)⟩

/--
In every history of triage the alerts of a fingerprint are archived as duplicates exactly within
the window of their last representative, and the group of the fingerprint keeps this window.
-/
theorem dedup_window_law (hother : ∀ w w', others w w' → BetweenTriage w w')
    (hnew : ∀ g ∈ w₀.db.alertDedupGroups, g.fingerprint ≠ fp)
    (h : TriageHistory rt n fp others w₀ log w) : DedupLaw (minutes n) fp log w.db := by
  obtain ⟨o, ho⟩ := dedupHeld_of_history hother hnew h
  exact ho.law

theorem LoadedFrom.record {route : RouteDecision} {now : Time} {groups : Rows AlertDedupGroup}
    (h : LoadedFrom db alert) :
    LoadedFrom (recordTriage c route now { db with alertDedupGroups := groups }) alert := by
  obtain ⟨a, ha, hfp⟩ := h
  obtain ⟨a', ha', hfp'⟩ := getElem?_routed c route ha c.alert.id
  exact ⟨a', ha', hfp'.trans hfp⟩

theorem loadedFrom_of_mem_fetchNewAlerts {tie : ℕ → ℕ} {k : ℕ}
    (h : alert ∈ fetchNewAlerts tie k db) : LoadedFrom db alert := by
  obtain ⟨⟨j, a⟩, hmem, hsource⟩ := List.mem_filterMap.mp (Rows.mem_of_mem_orderLimit h)
  obtain ⟨source, -, rfl⟩ := Option.map_eq_some_iff.mp hsource
  exact ⟨a, (Rows.mem_select.mp hmem).1, rfl⟩

/-- Every history that ends in the first world continues to the second. -/
def Continues (rt : Runtime) (n : ℤ) (fp : String) (others : World → World → Prop)
    (w₀ w w' : World) : Prop :=
  ∀ log, TriageHistory rt n fp others w₀ log w → ∃ log', TriageHistory rt n fp others w₀ (log ++ log') w'

instance continuesRefl : Std.Refl (Continues rt n fp others w₀) where
  refl _ _ h := ⟨[], by simpa using h⟩

instance continuesTrans : IsTrans World (Continues rt n fp others w₀) where
  trans _ _ _ h h' log hlog := by
    obtain ⟨log₁, h₁⟩ := h log hlog
    obtain ⟨log₂, h₂⟩ := h' _ h₁
    exact ⟨log₁ ++ log₂, by simpa using h₂⟩

theorem continues_of_db (hquiet : ∀ w w', w'.db = w.db → others w w') (h : w'.db = w.db) :
    Continues rt n fp others w₀ w w' := fun _ hlog =>
  ⟨[], by simpa using hlog.between (hquiet _ _ h)⟩

theorem triageRun_history {runEnv : TriageRunEnv} {limit : Option ℤ} {useLock : Bool}
    (hquiet : ∀ w w', w'.db = w.db → others w w') (hwindow : config.dedupWindowMinutes = n) :
    Respects (Continues rt n fp others w₀) (triageRun rt config runEnv limit useLock) := by
  unfold triageRun
  split
  · exact respects_pure _
  · refine Respects.bind (fun w => continues_of_db hquiet rfl) fun _ =>
      (respects_sqlLimit _).bind fun k => (respects_fallible _).bind fun _ => fun w => ?_
    rw [exec_query_bind]
    -- the alerts keep their fingerprints while the others are triaged
    refine (triageLoop rt config runEnv).run_rule
      (fun alerts _ w' => Continues rt n fp others w₀ w w' ∧ ∀ alert ∈ alerts, LoadedFrom w'.db alert)
      (Continues rt n fp others w₀ w) ?_ ?_ (fun _ _ _ h => h.1)
      ⟨Std.Refl.refl w, fun alert => loadedFrom_of_mem_fetchNewAlerts⟩
    · rintro alert alerts _ w₁ _ w₂ ⟨hcontinues, hloaded⟩ hbody
      obtain ⟨ctx, w₂, hrun, hcommit⟩ := exec_bind_ok.mp hbody
      obtain ⟨-, rfl⟩ := exec_fallible_ok.mp hcommit
      constructor
      · intro log hlog
        obtain ⟨log', h⟩ := hcontinues log hlog
        by_cases hfp : alert.row.fingerprint = fp
        · have hnext := h.committed hwindow (hloaded alert List.mem_cons_self) hrun hfp
          rw [List.append_assoc] at hnext
          exact ⟨_, hnext⟩
        · exact ⟨log', h.other hrun hfp⟩
      · intro other hother
        obtain ⟨gid, groups, route, now, -, -, -, -, -, -, -, hdb⟩ := pipelineRun_ok hrun
        rw [hdb]
        exact (hloaded other (List.mem_cons_of_mem _ hother)).record
    · rintro alert alerts _ w₁ e w₂ ⟨hcontinues, hloaded⟩ hbody
      refine ⟨IsTrans.trans _ _ _ hcontinues (continues_of_db hquiet rfl), ?_⟩
      exact fun other hother => hloaded other (List.mem_cons_of_mem _ hother)

end

def repeatedAlert : AlertSnapshot where
  id := 0
  dataSourceName := "siem"
  row := { dataSourceId := 0, sourceAlertId := "a", fingerprint := "fp", occurredAt := 0,
           ingestedAt := 0 }

def repeatedWorld : World where
  db := { alerts := [repeatedAlert.row, repeatedAlert.row] }

def triageRepeated (id : ℕ) (now : Time) : Session TriageContext :=
  pipelineRun (sampleRuntime .nondecreasing []) {} { dedupNow := now }
    { alert := { repeatedAlert with id } }

def representedWorld : World := (exec (triageRepeated 0 0) repeatedWorld).2

theorem exec_triageRepeated {id : ℕ} {now : Time} {w : World}
    (h : (returned (triageRepeated id now) w).isSome = true) :
    exec (triageRepeated id now) w =
      (.ok ((returned (triageRepeated id now) w).getD { alert := repeatedAlert }),
        (exec (triageRepeated id now) w).2) := by
  apply exec_of_returned
  obtain ⟨ctx, hctx⟩ := Option.isSome_iff_exists.mp h
  simp [hctx]

theorem dedup_window_law_repeated : ∃ (log : List (Arrival ℕ Time)) (w : World),
    log.map Arrival.repeated = [false, true] ∧ DedupLaw (minutes 60) "fp" log w.db := by
  have hstart : TriageHistory (sampleRuntime .nondecreasing []) 60 "fp" BetweenTriage repeatedWorld
      [] repeatedWorld := .start
  have hfirst := hstart.committed rfl ⟨_, rfl, rfl⟩ (@exec_triageRepeated 0 0 repeatedWorld (by decide +kernel)) rfl
  have hsecond := hfirst.committed rfl ⟨_, rfl, rfl⟩
    (@exec_triageRepeated 1 (minutes 60) representedWorld (by decide +kernel)) rfl
  exact ⟨_, _, by decide +kernel, dedup_window_law (fun _ _ h => h) (List.forall_mem_nil _) hsecond⟩

end Minsight

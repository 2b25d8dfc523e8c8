import Minsight.Assets.Pipeline
import Minsight.Model.Footprint

/-! # What settling an event does

Whether and where settling an event raises is decided by the event and its surroundings:
settling other events changes nothing about it. A target that gets past the building of
its case leaves that case behind, whatever is raised after it.
-/

namespace Minsight

open Tx Session

def pendingCandidates (db : Db) (phash : String) : ℕ :=
  db.whitelistCandidates.countP fun c => c.status == .pending && samePatternHash phash c

section

variable (rt : Runtime) (config : DefenseAssetConfig)

def whitelistFault (env : SettleEnv) (db : Db) (t : SettleTarget) : Option SettleFault :=
  match whitelistPattern rt config t.conclusion with
  | none => none
  | some (_, _, phash) =>
    (env.faults .whitelist).or
      (if 2 ≤ pendingCandidates db phash then some (.raises .multipleResults) else none)

def profileFault (env : SettleEnv) (t : SettleTarget) : Option SettleFault :=
  if (profileTarget rt t.conclusion).isSome then env.faults .profile else none

def closingFault (env : SettleEnv) : Option SettleFault :=
  if config.autoCloseEvent && config.requireDispositionConfirm then env.faults .dispositions
  else none

def settleFault (env : SettleEnv) (db : Db) (t : SettleTarget) : Option SettleFault :=
  (env.faults .buildCase).or <| (whitelistFault rt config env db t).or <|
    (profileFault rt env t).or (closingFault config env)

end

section Selection

variable {r : World → World → Prop} [Std.Refl r] [IsTrans World r] {config : DefenseAssetConfig}

theorem collectTargets_respects (close : ∀ e, Respects r (closeEvent e)) {tie : ℕ → ℕ} {limit : ℕ}
    {targets : List SettleTarget} {events : List (ℕ × Event)} :
    Respects r (collectTargets config tie limit targets events) := by
  induction events generalizing targets with
  | nil => exact respects_pure _
  | cons e events ih =>
    unfold collectTargets
    split
    · exact respects_pure _
    · refine (respects_query _).bind fun db => ?_
      split
      · exact ih
      · split
        · exact ih
        · split
          · exact ih
          · split
            · exact (close _).bind fun _ => ih
            · exact ih
          · exact respects_raise _

theorem pickTargets_respects (close : ∀ e, Respects r (closeEvent e)) {tie : ℕ → ℕ} {limit : ℤ} :
    Respects r (pickTargets config tie limit) :=
  (respects_sqlLimit _).bind fun _ => (respects_query _).bind fun _ =>
    collectTargets_respects close

end Selection

section

variable {rt : Runtime} {config : DefenseAssetConfig} {α β : Type} {m : Session α}
  {k : α → Session β} {fault fault' : Option SettleFault} {Q Q' : World → World → Prop}
  {w w' : World}

/-- How a program ends that raises a fault, when there is one, and does `Q` to the state. -/
structure Ends (fault : Option SettleFault) (Q : World → World → Prop) (m : Session α)
    (w : World) : Prop where
  returns : fault = none → ∃ a w', exec m w = (.ok a, w') ∧ w'.failed = false ∧ Q w w'
  raises : ∀ f, fault = some f →
    ∃ e w', exec m w = (.error e, w') ∧ w'.failed = (f == .database) ∧ Q w w'

theorem Ends.bind [IsTrans World Q] (hm : Ends fault Q m w)
    (hk : ∀ a w', exec m w = (.ok a, w') → w'.failed = false → Q w w' →
      Ends fault' Q (k a) w') : Ends (fault.or fault') Q (m >>= k) w where
  returns h := by
    obtain ⟨hf, hf'⟩ := Option.or_eq_none_iff.mp h
    obtain ⟨a, w₁, hexec, hopen, hq⟩ := hm.returns hf
    obtain ⟨b, w₂, hexec', hopen', hq'⟩ := (hk a w₁ hexec hopen hq).returns hf'
    exact ⟨b, w₂, (exec_bind_of_ok hexec).trans hexec', hopen', IsTrans.trans _ _ _ hq hq'⟩
  raises f h := by
    cases hf : fault with
    | some g =>
      obtain rfl : g = f := by simpa [hf] using h
      obtain ⟨e, w₁, hexec, hfailed, hq⟩ := hm.raises g hf
      exact ⟨e, w₁, exec_bind_of_error hexec, hfailed, hq⟩
    | none =>
      rw [hf, Option.none_or] at h
      obtain ⟨a, w₁, hexec, hopen, hq⟩ := hm.returns hf
      obtain ⟨e, w₂, hexec', hfailed, hq'⟩ := (hk a w₁ hexec hopen hq).raises f h
      exact ⟨e, w₂, (exec_bind_of_ok hexec).trans hexec', hfailed, IsTrans.trans _ _ _ hq hq'⟩

theorem Ends.bind_returns [IsTrans World Q] (hm : Ends fault Q m w)
    (hk : ∀ a w', exec m w = (.ok a, w') → w'.failed = false → Q w w' → Ends none Q (k a) w') :
    Ends fault Q (m >>= k) w := by
  have h := hm.bind hk
  rwa [Option.or_none] at h

theorem Ends.of_ok {a : α} (h : exec m w = (.ok a, w')) (hopen : w'.failed = false)
    (hq : Q w w') : Ends none Q m w where
  returns _ := ⟨a, w', h, hopen, hq⟩
  raises _ := nofun

theorem Ends.mono (h : Ends fault Q m w) (hQ : ∀ w', Q w w' → Q' w w') : Ends fault Q' m w where
  returns hf := by
    obtain ⟨a, w', hexec, hopen, hq⟩ := h.returns hf
    exact ⟨a, w', hexec, hopen, hQ w' hq⟩
  raises f hf := by
    obtain ⟨e, w', hexec, hfailed, hq⟩ := h.raises f hf
    exact ⟨e, w', hexec, hfailed, hQ w' hq⟩

theorem settleStep_ends (h : w.failed = false) :
    Ends fault (Keeps id) (settleStep fault) w where
  returns hf := by
    subst hf
    refine ⟨(), w, ?_, h, rfl⟩
    simp [settleStep, h]
  raises f hf := by
    subst hf
    cases f with
    | raises e => exact ⟨e, w, by simp [settleStep, h], h, rfl⟩
    | database => exact ⟨.statement, { w with failed := true }, by simp [settleStep, h], rfl, rfl⟩

/-- No case is added, and no pattern hash gets or loses a duplicate. -/
structure SameDuplicates (db db' : Db) : Prop where
  cases : db'.judgmentCases = db.judgmentCases
  duplicates : ∀ phash, 2 ≤ pendingCandidates db' phash ↔ 2 ≤ pendingCandidates db phash

instance : Std.Refl SameDuplicates where
  refl _ := ⟨rfl, fun _ => Iff.rfl⟩

instance : IsTrans Db SameDuplicates where
  trans _ _ _ h h' :=
    ⟨h'.cases.trans h.cases, fun phash => (h'.duplicates phash).trans (h.duplicates phash)⟩

theorem SameDuplicates.of_keeps (h : Keeps id w w') : OnDb SameDuplicates w w' := by
  have hdb : w'.db = w.db := h
  rw [OnDb, hdb]
  exact Std.Refl.refl _

theorem SameDuplicates.of_eq {db db' : Db} (hc : db'.judgmentCases = db.judgmentCases)
    (hw : db'.whitelistCandidates = db.whitelistCandidates) : SameDuplicates db db' :=
  ⟨hc, fun phash => by rw [pendingCandidates, pendingCandidates, hw]⟩

theorem SameDuplicates.add {db : Db} {i : ℕ} {wl pattern : Json} {phash : String}
    (h : pendingCandidates db phash = 0) : SameDuplicates db { db with
      whitelistCandidates := db.whitelistCandidates ++ [whitelistCandidateOf i wl pattern phash] } where
  cases := rfl
  duplicates phash' := by
    have hcount : pendingCandidates { db with
        whitelistCandidates := db.whitelistCandidates ++ [whitelistCandidateOf i wl pattern phash] }
        phash' = pendingCandidates db phash' + if phash = phash' then 1 else 0 := by
      have hnew : samePatternHash phash' (whitelistCandidateOf i wl pattern phash) =
          (phash == phash') := by
        have hget : (whitelistCandidateOf i wl pattern phash).suggestedPattern.get? "pattern_hash" =
          some (.str phash) := rfl
        rw [samePatternHash, hget]
      have hstatus : (whitelistCandidateOf i wl pattern phash).status = .pending := rfl
      simp only [pendingCandidates, List.countP_append, List.countP_singleton, hnew, hstatus]
      by_cases hp : phash = phash' <;> simp [hp]
    rw [hcount]
    split
    · rename_i hp
      rw [← hp, h]
      omega
    · rw [Nat.add_zero]

theorem addWhitelistCandidate_ends {env : SettleEnv} {t : SettleTarget} (h : w.failed = false) :
    Ends (whitelistFault rt config env w.db t) (OnDb SameDuplicates)
      (addWhitelistCandidate rt config env t) w := by
  unfold addWhitelistCandidate whitelistFault
  rcases whitelistPattern rt config t.conclusion with _ | ⟨wl, pattern, phash⟩
  · exact .of_ok rfl h (Std.Refl.refl w)
  · refine ((settleStep_ends h).mono fun _ => SameDuplicates.of_keeps).bind fun _ w₁ hstep hopen _ => ?_
    obtain rfl : w = w₁ := by
      cases hf : env.faults .whitelist with
      | none => simpa [settleStep, h, hf] using hstep
      | some f => cases f <;> simp [settleStep, h, hf] at hstep
    have hcount : pendingCandidates w.db phash =
        w.db.whitelistCandidates.countP fun c => c.status == .pending && samePatternHash phash c :=
      rfl
    split
    · rename_i hdup
      refine ⟨nofun, fun f hf => ?_⟩
      obtain rfl : SettleFault.raises .multipleResults = f := by simpa using hf
      obtain ⟨n, hn⟩ : ∃ n, pendingCandidates w.db phash = n + 2 :=
        ⟨_, (Nat.sub_add_cancel hdup).symm⟩
      refine ⟨.multipleResults, w, ?_, hopen, Std.Refl.refl w⟩
      rw [exec_query_bind, ← hcount, hn]
      rfl
    · rename_i hdup
      refine ⟨fun _ => ?_, nofun⟩
      rw [exec_query_bind, ← hcount]
      rcases hn : pendingCandidates w.db phash with _ | _ | n
      · exact ⟨(), _, rfl, hopen, SameDuplicates.add hn⟩
      · exact ⟨(), w, rfl, hopen, Std.Refl.refl w⟩
      · omega

theorem addProfileSuggestion_ends {env : SettleEnv} {t : SettleTarget} (h : w.failed = false) :
    Ends (profileFault rt env t) (OnDb SameDuplicates) (addProfileSuggestion rt env t) w := by
  unfold addProfileSuggestion profileFault
  rcases profileTarget rt t.conclusion with _ | ⟨pu, entityType, key⟩
  · exact .of_ok rfl h (Std.Refl.refl w)
  · rw [Option.isSome_some, if_pos rfl]
    refine ((settleStep_ends h).mono fun _ => SameDuplicates.of_keeps).bind_returns
      fun _ w₁ _ hopen _ => ?_
    refine .of_ok rfl hopen ?_
    rw [OnDb]
    dsimp only
    split
    · exact .of_eq rfl rfl
    · exact .of_eq rfl rfl

theorem closeSettled_ends {env : SettleEnv} {t : SettleTarget} (h : w.failed = false) :
    Ends (closingFault config env) (OnDb SameDuplicates) (closeSettled config env t) w := by
  unfold closeSettled closingFault
  cases config.autoCloseEvent with
  | false => exact .of_ok rfl h (Std.Refl.refl w)
  | true =>
    cases config.requireDispositionConfirm with
    | false => exact .of_ok rfl h (.of_eq rfl rfl)
    | true =>
      rw [Bool.true_and, if_pos rfl, if_pos rfl, if_pos rfl]
      refine ((settleStep_ends h).mono fun _ => SameDuplicates.of_keeps).bind_returns
        fun _ w₁ _ hopen _ => ?_
      cases hres : dispositionsResolved w₁.db t.investigationId with
      | false =>
        have hexec : exec (Session.query (fun db => dispositionsResolved db t.investigationId) >>=
            fun resolved => if resolved then closeEvent t.eventId else pure ()) w₁ =
            (.ok (), w₁) := by
          rw [exec_query_bind, hres]
          rfl
        exact .of_ok hexec hopen (Std.Refl.refl w₁)
      | true =>
        have hexec : exec (Session.query (fun db => dispositionsResolved db t.investigationId) >>=
            fun resolved => if resolved then closeEvent t.eventId else pure ()) w₁ =
            (.ok (), (exec (closeEvent t.eventId) w₁).2) := by
          rw [exec_query_bind, hres]
          rfl
        exact .of_ok hexec hopen (.of_eq rfl rfl)

/-- One case of an investigation is added, and no pattern hash gets or loses a duplicate. -/
structure Filed (investigationId : ℕ) (db db' : Db) : Prop where
  cases : ∃ case : JudgmentCase, case.investigationId = investigationId ∧
    db'.judgmentCases = db.judgmentCases ++ [case]
  duplicates : ∀ phash, 2 ≤ pendingCandidates db' phash ↔ 2 ≤ pendingCandidates db phash

def settleRest (rt : Runtime) (config : DefenseAssetConfig) (env : SettleEnv) (t : SettleTarget) :
    Session Unit := do
  addWhitelistCandidate rt config env t
  addProfileSuggestion rt env t
  addRuleCandidate t
  closeSettled config env t

theorem whitelistFault_congr {env : SettleEnv} {t : SettleTarget} {db db' : Db}
    (h : ∀ phash, 2 ≤ pendingCandidates db' phash ↔ 2 ≤ pendingCandidates db phash) :
    whitelistFault rt config env db' t = whitelistFault rt config env db t := by
  unfold whitelistFault
  rcases whitelistPattern rt config t.conclusion with _ | ⟨wl, pattern, phash⟩
  · rfl
  · simp only [h phash]

theorem settleFault_congr {env : SettleEnv} {t : SettleTarget} {db db' : Db}
    (h : ∀ phash, 2 ≤ pendingCandidates db' phash ↔ 2 ≤ pendingCandidates db phash) :
    settleFault rt config env db' t = settleFault rt config env db t := by
  rw [settleFault, settleFault, whitelistFault_congr h]

theorem settleRest_ends {env : SettleEnv} {t : SettleTarget} (h : w.failed = false) :
    Ends ((whitelistFault rt config env w.db t).or
        ((profileFault rt env t).or (closingFault config env)))
      (OnDb SameDuplicates) (settleRest rt config env t) w := by
  refine (addWhitelistCandidate_ends h).bind fun _ w₁ _ h₁ _ => ?_
  refine (addProfileSuggestion_ends h₁).bind fun _ w₂ _ h₂ _ => ?_
  have hrule : Ends none (OnDb SameDuplicates) (addRuleCandidate t) w₂ :=
    .of_ok rfl h₂ (.of_eq rfl rfl)
  exact hrule.bind fun _ w₃ _ h₃ _ => closeSettled_ends h₃

/-- Past the building of its case, a target leaves the case behind however it ends. -/
theorem settleOne_ends (rt : Runtime) (config : DefenseAssetConfig) {env : SettleEnv} (tie : ℕ → ℕ)
    (t : SettleTarget) (h : w.failed = false) (hbuild : env.faults .buildCase = none) :
    Ends (settleFault rt config env w.db t) (OnDb (Filed t.investigationId))
      (settleOne rt config env tie t) w := by
  let case := embedCase config env
    (buildJudgmentCase rt tie w.db t.investigationId t.eventId t.event t.conclusion)
  let w₁ : World := { w with db := { w.db with judgmentCases := w.db.judgmentCases ++ [case] } }
  have hexec : exec (settleOne rt config env tie t) w = exec (settleRest rt config env t) w₁ := by
    simp [settleOne, settleStep, h, hbuild, settleRest, w₁, case]
  have hcase : case.investigationId = t.investigationId := by
    simp only [case, embedCase]
    split <;> rfl
  have hfiled (w₂ : World) (hw : OnDb SameDuplicates w₁ w₂) :
      OnDb (Filed t.investigationId) w w₂ := ⟨⟨case, hcase, hw.cases⟩, hw.duplicates⟩
  have hrest : Ends _ (OnDb SameDuplicates) (settleRest rt config env t) w₁ := settleRest_ends h
  rw [settleFault, hbuild, Option.none_or]
  constructor
  · intro hf
    obtain ⟨a, w₂, hok, hopen, hq⟩ := hrest.returns hf
    exact ⟨a, w₂, hexec.trans hok, hopen, hfiled w₂ hq⟩
  · intro f hf
    obtain ⟨e, w₂, herror, hfailed, hq⟩ := hrest.raises f hf
    exact ⟨e, w₂, hexec.trans herror, hfailed, hfiled w₂ hq⟩

theorem settleOne_of_buildCase (rt : Runtime) (config : DefenseAssetConfig) {env : SettleEnv}
    (tie : ℕ → ℕ) (t : SettleTarget) {f : SettleFault} (h : w.failed = false) (hbuild : env.faults .buildCase = some f) :
    ∃ e, exec (settleOne rt config env tie t) w =
      (.error e, { w with failed := f == .database }) := by
  cases f with
  | raises e =>
    have hw : { w with failed := SettleFault.raises e == .database } = w := by
      rw [show (SettleFault.raises e == .database) = false from rfl, ← h]
    exact ⟨e, by simp [settleOne, settleStep, h, hbuild, hw]⟩
  | database => exact ⟨.statement, by simp [settleOne, settleStep, h, hbuild]⟩

theorem settleOne_of_failed {env : SettleEnv} {tie : ℕ → ℕ} {t : SettleTarget}
    (h : w.failed = true) :
    exec (settleOne rt config env tie t) w = (.error .pendingRollback, w) := by
  simp [settleOne, settleStep, h]

def settled (rt : Runtime) (config : DefenseAssetConfig) (env : AssetPipelineEnv)
    (ts : List SettleTarget) (w : World) : World :=
  (exec (settleAll rt config env {} ts) w).2

theorem exec_settleAll_snd {env : AssetPipelineEnv} {result : AssetPipelineResult}
    {ts : List SettleTarget} :
    (exec (settleAll rt config env result ts) w).2 = settled rt config env ts w := by
  unfold settled
  generalize ({} : AssetPipelineResult) = result'
  induction ts generalizing result result' w with
  | nil => rfl
  | cons t ts ih =>
    rw [settleAll, settleAll, exec_bind_attempt, exec_bind_attempt]
    split
    · exact ih _
    · exact ih _

theorem settled_cons (env : AssetPipelineEnv) (t : SettleTarget) (ts : List SettleTarget)
    (w : World) : settled rt config env (t :: ts) w =
      settled rt config env ts (exec (settleOne rt config (env.items t.eventId) env.tie t) w).2 := by
  rw [settled, settleAll, exec_bind_attempt]
  split
  · exact exec_settleAll_snd
  · exact exec_settleAll_snd

theorem settled_of_failed (rt : Runtime) (config : DefenseAssetConfig) (env : AssetPipelineEnv)
    (ts : List SettleTarget) (h : w.failed = true) :
    settled rt config env ts w = w := by
  induction ts with
  | nil => rfl
  | cons t ts ih => rw [settled_cons, settleOne_of_failed h, ih]

/-- What the targets of a run raise in a database. -/
def targetFault (rt : Runtime) (config : DefenseAssetConfig) (env : AssetPipelineEnv) (db : Db)
    (t : SettleTarget) : Option SettleFault :=
  settleFault rt config (env.items t.eventId) db t

theorem settleOne_open {env : AssetPipelineEnv} {t : SettleTarget} (h : w.failed = false)
    (hf : targetFault rt config env w.db t ≠ some .database) :
    ∃ w₁, (exec (settleOne rt config (env.items t.eventId) env.tie t) w).2 = w₁ ∧
      w₁.failed = false ∧
      (∀ phash, 2 ≤ pendingCandidates w₁.db phash ↔ 2 ≤ pendingCandidates w.db phash) ∧
      w₁.db.judgmentCases.length = w.db.judgmentCases.length +
        if (env.items t.eventId).faults .buildCase = none then 1 else 0 := by
  refine ⟨_, rfl, ?_⟩
  cases hbuild : (env.items t.eventId).faults .buildCase with
  | some f =>
    obtain ⟨e, he⟩ := settleOne_of_buildCase rt config env.tie t h hbuild
    have hfault : targetFault rt config env w.db t = some f := by
      simp [targetFault, settleFault, hbuild]
    rw [he]
    refine ⟨?_, fun _ => Iff.rfl, by simp⟩
    rw [hfault] at hf
    simpa using hf
  | none =>
    have hends := settleOne_ends rt config env.tie t h hbuild
    have hlength (w' : World) (hq : OnDb (Filed t.investigationId) w w') :
        w'.db.judgmentCases.length = w.db.judgmentCases.length + 1 := by
      obtain ⟨case, -, hcases⟩ := hq.cases
      rw [hcases, List.length_append, List.length_singleton]
    cases hfault : targetFault rt config env w.db t with
    | none =>
      obtain ⟨a, w', hexec, hopen, hq⟩ := hends.returns hfault
      rw [hexec]
      exact ⟨hopen, hq.duplicates, by simpa using hlength w' hq⟩
    | some f =>
      obtain ⟨e, w', hexec, hfailed, hq⟩ := hends.raises f hfault
      rw [hexec]
      refine ⟨?_, hq.duplicates, by simpa using hlength w' hq⟩
      rw [hfailed]
      rw [hfault] at hf
      simpa using hf

end

end Minsight

import Minsight.Agent.Bounds
import Minsight.Agent.Supervisor

/-! # Evidence references in the audit

The loop records the summary and the data of a result, but not its evidence reference. The audit
looks for a cited reference in the recorded summaries and in the names of the skills.
-/

namespace Minsight

open Tx Session

def returnedBy (env : AgentEnv) (row : InvestigationToolCall) (number : ℕ) : SkillResult :=
  skillResult env (env.skill row.stepNumber number row.retryCount)

/-- The row of an attempt has what it returned, its evidence reference apart. -/
structure RecordsResult (row : InvestigationToolCall) (result : SkillResult) : Prop where
  skillOutput : row.skillOutput = result.data
  outputSummary : row.outputSummary = some result.summary
  success : row.success = result.success

/-- The attempts of a run: their rows, each with what the skill returned. -/
def runCalls (env : AgentEnv) (w w' : World) : List (InvestigationToolCall × SkillResult) :=
  (w'.db.toolCalls.drop w.db.toolCalls.length).zipWith (fun row n => (row, returnedBy env row n))
    (attemptNumbers (w'.out.agentLog.drop w.out.agentLog.length))

section

variable {config : InvestigationConfig} {env : AgentEnv} {ctx : InvestigationContext}
  {start : LoopRecord} {p q : LoopPoint}

theorem LoopStep.records (hgrows : start.log <+: p.record.log)
    (hstep : LoopStep config env ctx p q) :
    (q.record.toolCalls = p.record.toolCalls ∧
      attemptNumbers (q.since start) = attemptNumbers (p.since start)) ∨
    ∃ row n, q.record.toolCalls = p.record.toolCalls ++ [row] ∧
      attemptNumbers (q.since start) = attemptNumbers (p.since start) ++ [n] ∧
      row.investigationId = ctx.investigationId ∧ RecordsResult row (returnedBy env row n) := by
  have numbers {entries : List AgentEvent} (hlog : q.record.log = p.record.log ++ entries) :
      attemptNumbers (q.since start) =
        attemptNumbers (p.since start) ++ attemptNumbers entries := by
    rw [since_append hgrows hlog, attemptNumbers, List.filterMap_append]
    rfl
  have silent {entries : List AgentEvent} (hlog : q.record.log = p.record.log ++ entries)
      (hnone : attemptNumbers entries = []) :
      attemptNumbers (q.since start) = attemptNumbers (p.since start) := by
    rw [numbers hlog, hnone, List.append_nil]
  cases hstep with
  | chatted _ _ _ => exact Or.inl ⟨rfl, silent rfl rfl⟩
  | reminded _ => exact Or.inl ⟨rfl, rfl⟩
  | asked _ _ _ _ _ => exact Or.inl ⟨rfl, rfl⟩
  | counted _ _ _ => exact Or.inl ⟨rfl, rfl⟩
  | attempted _ _ _ _ => exact Or.inr ⟨_, _, rfl, numbers rfl, rfl, rfl, rfl, rfl⟩
  | rejected _ _ => exact Or.inl ⟨rfl, rfl⟩
  | resumed _ _ _ => exact Or.inl ⟨rfl, silent rfl rfl⟩
  | answered _ _ => exact Or.inl ⟨rfl, rfl⟩

structure Recorded (env : AgentEnv) (ctx : InvestigationContext) (start : LoopRecord)
    (p : LoopPoint) : Prop where
  grows : start.log <+: p.record.log
  rows : ∃ rows, p.record.toolCalls = start.toolCalls ++ rows ∧
    (∀ row ∈ rows, row.investigationId = ctx.investigationId) ∧
    List.Forall₂ (fun row n => RecordsResult row (returnedBy env row n)) rows
      (attemptNumbers (p.since start))

theorem recorded_opening : Recorded env ctx start (openingPoint env ctx start) := by
  have hsince : (openingPoint env ctx start).since start = [] := List.drop_length
  refine ⟨List.prefix_refl _, [], (List.append_nil _).symm, nofun, ?_⟩
  rw [hsince]
  exact .nil

theorem recorded_step (h : Recorded env ctx start p) (hstep : LoopStep config env ctx p q) :
    Recorded env ctx start q := by
  refine ⟨h.grows.trans (log_grows hstep), ?_⟩
  obtain ⟨rows, hrows, hids, hresults⟩ := h.rows
  rcases hstep.records h.grows with ⟨hsame, hnumbers⟩ | ⟨row, n, hadd, hnumbers, hid, hresult⟩
  · rw [hsame, hnumbers]
    exact ⟨rows, hrows, hids, hresults⟩
  · rw [hadd, hnumbers]
    refine ⟨rows ++ [row], by rw [hrows, List.append_assoc], ?_, ?_⟩
    · intro r hr
      rcases List.mem_append.mp hr with hr | hr
      · exact hids r hr
      · exact List.mem_singleton.mp hr ▸ hid
    · exact List.rel_append hresults (.cons hresult .nil)

theorem recorded_reached (h : LoopReaches config env ctx start p) : Recorded env ctx start p := by
  refine reached_of_step (fun p q hp hstep => ?_) h recorded_opening
  exact recorded_step hp hstep

end

theorem pairs_of_forall₂ {α β γ : Type} {R : α → β → Prop} (f : α → β → γ) {l : List α}
    {m : List β} (h : List.Forall₂ R l m) :
    (l.zipWith (fun a b => (a, f a b)) m).map Prod.fst = l ∧
      ∀ c ∈ l.zipWith (fun a b => (a, f a b)) m, c.1 ∈ l ∧ ∃ b, c.2 = f c.1 b ∧ R c.1 b := by
  induction h with
  | nil => exact ⟨rfl, nofun⟩
  | cons hab _ ih =>
    obtain ⟨hfst, hall⟩ := ih
    rw [List.zipWith_cons_cons]
    refine ⟨by rw [List.map_cons, hfst], List.forall_mem_cons.mpr ⟨?_, ?_⟩⟩
    · exact ⟨List.mem_cons_self, _, rfl, hab⟩
    · intro c hc
      obtain ⟨hmem, hrel⟩ := hall c hc
      exact ⟨List.mem_cons_of_mem _ hmem, hrel⟩

theorem recorded_run (rt : Runtime) (config : InvestigationConfig) (env : AgentEnv)
    (ctx : InvestigationContext) (w : World) :
    let w' := (exec (agentRun rt config env ctx) w).2
    w'.db.toolCalls = w.db.toolCalls ++ (runCalls env w w').map Prod.fst ∧
      ∀ c ∈ runCalls env w w', c.1.investigationId = ctx.investigationId ∧
        RecordsResult c.1 c.2 := by
  intro w'
  obtain ⟨p, hreach, hrecord, -⟩ := agentRun_reaches rt config env ctx w
  obtain ⟨rows, hrows, hids, hresults⟩ := (recorded_reached hreach).rows
  have htool : w'.db.toolCalls = w.db.toolCalls ++ rows :=
    (congrArg LoopRecord.toolCalls hrecord).trans hrows
  have hlog : w'.out.agentLog.drop w.out.agentLog.length =
      p.since (w.loopRecord ctx.investigationId) :=
    congrArg (List.drop w.out.agentLog.length) (congrArg LoopRecord.log hrecord)
  have hcalls : runCalls env w w' = rows.zipWith (fun row n => (row, returnedBy env row n))
      (attemptNumbers (p.since (w.loopRecord ctx.investigationId))) := by
    rw [runCalls, hlog, htool, List.drop_left]
  obtain ⟨hfst, hall⟩ := pairs_of_forall₂ (returnedBy env) hresults
  rw [hcalls, hfst]
  refine ⟨htool, fun c hc => ?_⟩
  obtain ⟨hmem, n, hresult, hrecords⟩ := hall c hc
  exact ⟨hids _ hmem, hresult ▸ hrecords⟩

def OccursIn (rt : Runtime) (ref : String) (result : SkillResult) : Prop :=
  containsText ref result.summary ∨ containsText ref (rt.str result.data) ∨
    containsText ref result.evidenceRef

/-- The text is empty or occurs in the summaries of the results, one after the other, or in the
name of a skill that was called. -/
def Searchable (calls : List (InvestigationToolCall × SkillResult)) (ref : String) : Prop :=
  ref = "" ∨ containsText ref (joinText " " ((calls.map (·.2.summary)).filter (· ≠ ""))) ∨
    ∃ c ∈ calls, containsText ref c.1.skillName

def Returned (calls : List (InvestigationToolCall × SkillResult)) (ref : String) : Prop :=
  ∃ c ∈ calls, c.2.success = true ∧ c.2.evidenceRef = ref

/-- The audit accepts the references that successful calls returned, and reports each one that
occurs in no result. -/
structure AuditsEvidence (rt : Runtime) (calls : List (InvestigationToolCall × SkillResult))
    (conclusion : ConclusionPayload) (issues : List AuditIssue) : Prop where
  grounded : (∀ ref ∈ conclusion.evidenceRefs, Returned calls ref) →
    ∀ ref, .ungroundedEvidenceRef ref ∉ issues
  ungrounded : ∀ ref ∈ conclusion.evidenceRefs, (∀ c ∈ calls, ¬ OccursIn rt ref c.2) →
    .ungroundedEvidenceRef ref ∈ issues

/-- References that successful calls returned can be found by the search, and those that occur in
no result cannot. -/
structure SearchTells (rt : Runtime) (calls : List (InvestigationToolCall × SkillResult))
    (conclusion : ConclusionPayload) (enabled : Bool) : Prop where
  grounded : enabled = true → (∀ ref ∈ conclusion.evidenceRefs, Returned calls ref) →
    ∀ ref ∈ conclusion.evidenceRefs, Searchable calls ref
  ungrounded : ∀ ref ∈ conclusion.evidenceRefs, (∀ c ∈ calls, ¬ OccursIn rt ref c.2) →
    enabled = true ∧ ¬ Searchable calls ref

section

variable {rt : Runtime} {calls : List (InvestigationToolCall × SkillResult)}
  {conclusion : ConclusionPayload} {config : SupervisorConfig} {recommendedSkills : List String}

theorem outputSummaries (h : ∀ c ∈ calls, RecordsResult c.1 c.2) :
    (calls.map Prod.fst).filterMap (·.outputSummary) = calls.map (·.2.summary) := by
  induction calls with
  | nil => rfl
  | cons c calls ih =>
    rw [List.forall_mem_cons] at h
    rw [List.map_cons, List.filterMap_cons, h.1.outputSummary, ih h.2]
    rfl

/-- The references that the audit reports are those cited that its search does not find. -/
theorem mem_issues_iff (h : ∀ c ∈ calls, RecordsResult c.1 c.2) (ref : String) :
    .ungroundedEvidenceRef ref ∈
        (audit rt conclusion (calls.map Prod.fst) config recommendedSkills).issues ↔
      config.enabled = true ∧ ref ∈ conclusion.evidenceRefs ∧ ¬ Searchable calls ref := by
  unfold audit Searchable
  rw [outputSummaries h]
  cases henabled : config.enabled with
  | false => simp
  | true => simp [not_or, and_assoc]

theorem auditsEvidence_iff (h : ∀ c ∈ calls, RecordsResult c.1 c.2) :
    AuditsEvidence rt calls conclusion
        (audit rt conclusion (calls.map Prod.fst) config recommendedSkills).issues ↔
      SearchTells rt calls conclusion config.enabled := by
  constructor
  · intro haudits
    constructor
    · intro henabled hreturned ref hcited
      by_contra hsearch
      exact haudits.grounded hreturned ref ((mem_issues_iff h ref).mpr ⟨henabled, hcited, hsearch⟩)
    · intro ref hcited hnowhere
      obtain ⟨henabled, -, hsearch⟩ :=
        (mem_issues_iff h ref).mp (haudits.ungrounded ref hcited hnowhere)
      exact ⟨henabled, hsearch⟩
  · intro htells
    constructor
    · intro hreturned ref hissue
      obtain ⟨henabled, hcited, hsearch⟩ := (mem_issues_iff h ref).mp hissue
      exact hsearch (htells.grounded henabled hreturned ref hcited)
    · intro ref hcited hnowhere
      obtain ⟨henabled, hsearch⟩ := htells.ungrounded ref hcited hnowhere
      exact (mem_issues_iff h ref).mpr ⟨henabled, hcited, hsearch⟩

end

/-- In every run of the agent, the audit on its recorded calls judges the cited references rightly
exactly if its search of the summaries and the skill names tells those returned from the others. -/
theorem evidence_audited_iff (rt : Runtime) (config : InvestigationConfig) (env : AgentEnv)
    (ctx : InvestigationContext) (w w' : World)
    (hrun : (exec (agentRun rt config env ctx) w).2 = w')
    (hnew : ∀ row ∈ w.db.toolCalls, row.investigationId ≠ ctx.investigationId)
    (calls : List (InvestigationToolCall × SkillResult)) (hcalls : calls.Perm (runCalls env w w'))
    (conclusion : ConclusionPayload) (supervisor : SupervisorConfig)
    (recommendedSkills : List String) :
    (calls.map Prod.fst).Perm
        (w'.db.toolCalls.filter (·.investigationId = ctx.investigationId)) ∧
      (AuditsEvidence rt calls conclusion
          (audit rt conclusion (calls.map Prod.fst) supervisor recommendedSkills).issues ↔
        SearchTells rt calls conclusion supervisor.enabled) := by
  subst hrun
  obtain ⟨htool, hall⟩ := recorded_run rt config env ctx w
  constructor
  · have hold : w.db.toolCalls.filter (·.investigationId = ctx.investigationId) = [] := by
      rw [List.filter_eq_nil_iff]
      intro row hrow
      simpa using hnew row hrow
    have hadded : ∀ row ∈ (runCalls env w (exec (agentRun rt config env ctx) w).2).map Prod.fst,
        decide (row.investigationId = ctx.investigationId) = true := by
      intro row hrow
      obtain ⟨c, hc, rfl⟩ := List.mem_map.mp hrow
      exact decide_eq_true (hall c hc).1
    rw [htool, List.filter_append, hold, List.nil_append, List.filter_eq_self.mpr hadded]
    exact hcalls.map Prod.fst
  · exact auditsEvidence_iff fun c hc => (hall c (hcalls.mem_iff.mp hc)).2

/-- The model asks once for an asset without a profile and then submits. -/
def assetEnv : AgentEnv where
  chat step _ := .ok { toolCalls := [{
    id := "call"
    name := if step = 1 then "query_asset" else submitConclusionName
    arguments := .obj [("verdict", .str "likely_false_positive")] }] }
  skill _ _ _ := { result := .ok {
    success := true
    summary := "No profile for host:web-1."
    evidenceRef := "asset:host:web-1" } }
  clock _ := 0

def assetRun : World :=
  (exec (agentRun (sampleRuntime .free []) {} assetEnv failedSkillContext) failedSkillWorld).2

def assetConclusion (refs : List String) : ConclusionPayload where
  verdict := .likelyFalsePositive
  confidence := 0
  riskLevel := .low
  reasoning := ""
  evidenceRefs := refs

/-- An on-duty note on the host names the reference of its asset. -/
def notedEnv : AgentEnv :=
  { assetEnv with
    skill := fun _ _ _ => { result := .ok {
      success := true
      summary := "No profile for host:web-1. On-duty notes: asset:host:web-1 is in maintenance."
      evidenceRef := "asset:host:web-1" } } }

def notedRun : World :=
  (exec (agentRun (sampleRuntime .free []) {} notedEnv failedSkillContext) failedSkillWorld).2

/-- The issues of the run with these references cited. -/
def notedIssues (refs : List String) : List AuditIssue :=
  (audit (sampleRuntime .free []) (assetConclusion refs)
    ((runCalls notedEnv failedSkillWorld notedRun).map Prod.fst) {} []).issues

/-- A reference that the search finds is accepted, and one that occurs nowhere is reported. -/
theorem evidence_audited_asset :
    (AuditsEvidence (sampleRuntime .free []) (runCalls notedEnv failedSkillWorld notedRun)
        (assetConclusion ["asset:host:web-1"]) (notedIssues ["asset:host:web-1"]) ∧
      notedIssues ["asset:host:web-1"] = []) ∧
    AuditsEvidence (sampleRuntime .free []) (runCalls notedEnv failedSkillWorld notedRun)
        (assetConclusion ["asset:host:web-1", "asset:host:web-2"])
        (notedIssues ["asset:host:web-1", "asset:host:web-2"]) ∧
      notedIssues ["asset:host:web-1", "asset:host:web-2"] =
        [.ungroundedEvidenceRef "asset:host:web-2"] := by
  have haudited (refs : List String) :=
    (evidence_audited_iff (sampleRuntime .free []) {} notedEnv failedSkillContext failedSkillWorld
      notedRun rfl (List.forall_mem_nil _) _ (List.Perm.refl _) (assetConclusion refs) {} []).2
  have hfound : Searchable (runCalls notedEnv failedSkillWorld notedRun) "asset:host:web-1" :=
    .inr (.inl (by decide +kernel))
  have hreturned : (runCalls notedEnv failedSkillWorld notedRun).map (·.2.evidenceRef) =
      ["asset:host:web-1"] := by decide +kernel
  have hoccurs : ∀ c ∈ runCalls notedEnv failedSkillWorld notedRun,
      OccursIn (sampleRuntime .free []) "asset:host:web-1" c.2 := fun c hc => by
    have hc : c.2.evidenceRef = "asset:host:web-1" :=
      List.mem_singleton.mp (hreturned ▸ List.mem_map_of_mem hc)
    exact .inr (.inr (by rw [hc]; decide +kernel))
  have hlost : ¬ Searchable (runCalls notedEnv failedSkillWorld notedRun) "asset:host:web-2" := by
    unfold Searchable
    decide +kernel
  have hforeign : ¬ Returned (runCalls notedEnv failedSkillWorld notedRun) "asset:host:web-2" := by
    unfold Returned
    decide +kernel
  have hcalled : (runCalls notedEnv failedSkillWorld notedRun) ≠ [] := by
    intro hnil
    rw [hnil] at hreturned
    cases hreturned
  obtain ⟨c, hc⟩ := List.exists_mem_of_ne_nil _ hcalled
  refine ⟨⟨(haudited _).mpr ⟨fun _ _ ref href => ?_, fun ref href hnowhere => ?_⟩,
    by decide +kernel⟩, (haudited _).mpr ⟨fun _ hall => ?_, fun ref href hnowhere => ?_⟩,
    by decide +kernel⟩
  · rwa [List.mem_singleton.mp href]
  · rw [List.mem_singleton.mp href] at hnowhere
    exact absurd (hoccurs c hc) (hnowhere c hc)
  · exact absurd (hall _ (List.mem_cons_of_mem _ (List.mem_singleton_self _))) hforeign
  · rcases List.mem_cons.mp href with rfl | href
    · exact absurd (hoccurs c hc) (hnowhere c hc)
    · rw [List.mem_singleton.mp href]
      exact ⟨rfl, hlost⟩

/-- The asset is cited by the reference that its skill returned, and the audit reports it. -/
theorem returned_reference_is_reported :
    ¬ ∀ (rt : Runtime) (config : InvestigationConfig) (env : AgentEnv) (ctx : InvestigationContext)
      (w : World) (conclusion : ConclusionPayload) (supervisor : SupervisorConfig)
      (recommendedSkills : List String),
      (∀ row ∈ w.db.toolCalls, row.investigationId ≠ ctx.investigationId) →
      AuditsEvidence rt (runCalls env w (exec (agentRun rt config env ctx) w).2) conclusion
        (audit rt conclusion ((runCalls env w (exec (agentRun rt config env ctx) w).2).map Prod.fst)
          supervisor recommendedSkills).issues := by
  intro h
  have haudits := h (sampleRuntime .free []) {} assetEnv failedSkillContext failedSkillWorld
    (assetConclusion ["asset:host:web-1"]) {} [] nofun
  have hreturned : Returned (runCalls assetEnv failedSkillWorld assetRun) "asset:host:web-1" := by
    unfold Returned
    decide +kernel
  refine haudits.grounded ?_ "asset:host:web-1" ?_
  · intro ref href
    obtain rfl := List.mem_singleton.mp href
    exact hreturned
  · decide +kernel

end Minsight

import Mathlib.Algebra.Order.BigOperators.Group.Finset
import Minsight.Agent.Effects
import Minsight.Agent.Grounding

/-! # The account of the skill calls

Between two tool calls the loop's own counter is the number of the skill calls attempted so
far. The investigation gets it on some of the ways out only: where the model raises, or where
a call is over the limit, the loop returns without storing it.
-/

namespace Minsight

open Tx Session

/-- The skill calls attempted, each counted once however often it was retried. -/
def attemptedCalls (log : List AgentEvent) : ℕ := (attemptNumbers log).toFinset.card

/-- Every skill call counted so far was attempted, unless it has just been counted. -/
structure Tried (start : LoopRecord) (p : LoopPoint) : Prop where
  grows : start.log <+: p.record.log
  numbers : ∀ n, 0 < n → n ≤ p.state.skillCalls →
    (n = p.state.skillCalls → p.attempts ≠ some 0) → n ∈ attemptNumbers (p.since start)

section

variable {config : InvestigationConfig} {env : AgentEnv} {ctx : InvestigationContext}
  {start : LoopRecord} {p q : LoopPoint}

theorem tried_opening : Tried start (openingPoint env ctx start) := by
  refine ⟨List.prefix_refl _, fun n hpos hle => ?_⟩
  exact absurd (hpos.trans_le hle) (lt_irrefl 0)

theorem attemptNumbers_grows (hgrows : start.log <+: p.record.log)
    (hstep : LoopStep config env ctx p q) {n : ℕ} (hn : n ∈ attemptNumbers (p.since start)) :
    n ∈ attemptNumbers (q.since start) := by
  obtain ⟨entries, hlog⟩ := log_grows hstep
  rw [since_append hgrows hlog.symm, attemptNumbers, List.filterMap_append]
  exact List.mem_append_left _ hn

theorem tried_step (h : Tried start p) (hstep : LoopStep config env ctx p q) : Tried start q := by
  have hkept := fun n => attemptNumbers_grows h.grows hstep (n := n)
  have hgrows := h.grows.trans (log_grows hstep)
  cases hstep with
  | chatted _ _ _ => exact ⟨hgrows, fun n hpos hle hn => hkept n (h.numbers n hpos hle hn)⟩
  | reminded _ => exact ⟨hgrows, h.numbers⟩
  | asked _ _ _ _ _ => exact ⟨hgrows, h.numbers⟩
  | counted _ _ attempts =>
    refine ⟨hgrows, fun n hpos hle hn => ?_⟩
    have hne : n ≠ p.state.skillCalls + 1 := fun heq => hn heq rfl
    have hold : n ≤ p.state.skillCalls := Nat.lt_succ_iff.mp (lt_of_le_of_ne hle hne)
    refine h.numbers n hpos hold fun _ => ?_
    rw [attempts]
    exact (Option.some_ne_none 0).symm
  | @attempted call rest k now pending attempts calls retries =>
    refine ⟨hgrows, fun n hpos hle _ => ?_⟩
    by_cases hn : n = p.state.skillCalls
    · rw [since_append h.grows rfl, attemptNumbers, List.filterMap_append, hn]
      exact List.mem_append_right _ (List.mem_singleton_self _)
    · exact hkept n (h.numbers n hpos hle fun heq => absurd heq hn)
  | rejected _ _ => exact ⟨hgrows, h.numbers⟩
  | resumed _ _ _ => exact ⟨hgrows, fun n hpos hle hn => hkept n (h.numbers n hpos hle hn)⟩
  | answered _ ready =>
    refine ⟨hgrows, fun n hpos hle _ => h.numbers n hpos hle fun _ => ?_⟩
    rcases ready with ⟨attempts, -⟩ | ⟨k, attempts⟩
    · rw [attempts]
      exact (Option.some_ne_none 0).symm
    · rw [attempts]
      exact fun hzero => Nat.succ_ne_zero k (Option.some.inj hzero)

theorem tried_reached (h : LoopReaches config env ctx start p) : Tried start p := by
  refine reached_of_step (fun p q hp hstep => ?_) h tried_opening
  exact tried_step hp hstep

/-- Where no attempt is under way, the counter of the loop is the number of attempted calls. -/
theorem attemptedCalls_reached (hrow : start.closureRetries.isSome)
    (h : LoopReaches config env ctx start p) (attempts : p.attempts = none) :
    attemptedCalls (p.since start) = p.state.skillCalls := by
  have hnumbers : (attemptNumbers (p.since start)).toFinset =
      Finset.Icc 1 p.state.skillCalls := by
    ext n
    rw [List.mem_toFinset, Finset.mem_Icc]
    constructor
    · intro hn
      obtain ⟨hpos, hle, -⟩ := (spent_reached hrow h).numbers n hn
      exact ⟨hpos, hle⟩
    · rintro ⟨hpos, hle⟩
      refine (tried_reached h).numbers n hpos hle fun _ => ?_
      rw [attempts]
      exact (Option.some_ne_none 0).symm
  rw [attemptedCalls, hnumbers, Nat.card_Icc, Nat.add_sub_cancel]

theorem attempts_le (hrow : start.closureRetries.isSome)
    (h : LoopReaches config env ctx start p) :
    ((attemptNumbers (p.since start)).length : ℤ) ≤
      (config.skillMaxRetries + 1) * attemptedCalls (p.since start) := by
  generalize hnumbers : attemptNumbers (p.since start) = numbers
  have hcount (n : ℕ) : numbers.count n ≤ (config.skillMaxRetries + 1).toNat := by
    rw [← hnumbers]
    exact (spent_reached hrow h).attempts n
  have hlength : numbers.length ≤ numbers.toFinset.card * (config.skillMaxRetries + 1).toNat := by
    calc numbers.length
      _ = ∑ n ∈ numbers.toFinset, numbers.count n :=
        (List.sum_toFinset_count_eq_length numbers).symm
      _ ≤ ∑ _n ∈ numbers.toFinset, (config.skillMaxRetries + 1).toNat :=
        Finset.sum_le_sum fun n _ => hcount n
      _ = numbers.toFinset.card * (config.skillMaxRetries + 1).toNat :=
        Finset.sum_const_nat fun _ _ => rfl
  rw [attemptedCalls, hnumbers]
  rcases numbers.eq_nil_or_concat' with rfl | ⟨_, n, rfl⟩
  · simp
  · -- A call that was attempted shows that the number of attempts is positive.
    have hpos := (hcount n).trans' (List.count_pos_iff.mpr List.mem_concat_self)
    have hretries : ((config.skillMaxRetries + 1).toNat : ℤ) = config.skillMaxRetries + 1 :=
      Int.toNat_of_nonneg (by omega)
    rw [mul_comm, ← hretries]
    exact_mod_cast hlength

end

/-- `skill_call_count` -/
def Db.skillCallCount (investigationId : ℕ) (db : Db) : Option ℕ :=
  (db.investigations[investigationId]?).map (·.skillCallCount)

abbrev KeepsCallCount (investigationId : ℕ) : World → World → Prop :=
  Keeps (Db.skillCallCount investigationId)

theorem skillCallCount_modify {f : Investigation → Investigation} {g : ℕ → ℕ}
    (hf : ∀ i, (f i).skillCallCount = g i.skillCallCount) (id : ℕ) (db : Db) :
    Db.skillCallCount id { db with investigations := db.investigations.modify id f } =
      (db.skillCallCount id).map g := by
  simp only [Db.skillCallCount, List.getElem?_modify_eq]
  cases db.investigations[id]? with
  | none => rfl
  | some i => exact congrArg some (hf i)

section Counter

variable {rt : Runtime} {config : InvestigationConfig} {env : AgentEnv}
  {ctx : InvestigationContext} {st : LoopState} {step calls attempt : ℕ} {call : ToolCallRequest}

theorem updateInvestigation_keepsCallCount {f : Investigation → Investigation}
    (hf : ∀ i, (f i).skillCallCount = i.skillCallCount) :
    Respects (KeepsCallCount ctx.investigationId) (updateInvestigation ctx.investigationId f) :=
  keeps_modify fun db => (skillCallCount_modify (g := id) hf _ db).trans Option.map_id_apply

theorem answerCall_keepsCallCount (content : String) :
    Respects (KeepsCallCount ctx.investigationId)
      (answerCall ctx.investigationId call content st) :=
  Respects.bind (keeps_modify fun _ => rfl) fun _ => respects_pure _

theorem attemptSkill_keepsCallCount :
    Respects (KeepsCallCount ctx.investigationId)
      (attemptSkill rt env ctx step calls attempt call) := by
  refine Respects.bind ?_ fun _ => Respects.bind
    (failTransaction_respects (r := KeepsCallCount ctx.investigationId) (fun _ => rfl) _)
    fun _ => (respects_setRedis _).bind fun _ => (respects_utcNow _ _).bind fun now =>
      Respects.bind (keeps_modify fun _ => rfl) fun _ => respects_pure _
  unfold recordCorrelation
  split
  · split
    · exact keeps_modify fun _ => rfl
    · exact respects_pure _
  · exact respects_pure _

theorem attemptSkills_keepsCallCount (remaining : ℕ) :
    Respects (KeepsCallCount ctx.investigationId)
      (attemptSkills rt env ctx step calls attempt call remaining) := by
  induction remaining generalizing attempt with
  | zero => exact attemptSkill_keepsCallCount
  | succ remaining ih =>
    refine attemptSkill_keepsCallCount.bind fun last => ?_
    split
    · exact respects_pure _
    · exact ih

theorem executeSkillWithRetry_keepsCallCount :
    Respects (KeepsCallCount ctx.investigationId)
      (executeSkillWithRetry rt config env ctx step calls call) := by
  unfold executeSkillWithRetry
  split
  · exact respects_raise _
  · exact attemptSkills_keepsCallCount _

theorem remind_keepsCallCount (content : String) :
    Respects (KeepsCallCount ctx.investigationId) (remind ctx content st) := by
  unfold remind
  split
  · exact respects_pure _
  · exact Respects.bind (keeps_modify fun _ => rfl) fun _ =>
      Respects.bind (keeps_modify fun _ => rfl) fun _ => respects_pure _

end Counter

section

variable (rt : Runtime) (config : InvestigationConfig) (env : AgentEnv)
  (ctx : InvestigationContext)

def OverLimit (call : ToolCallRequest) (st : LoopState) : Prop :=
  call.name ≠ submitConclusionName ∧ config.maxSkillCalls < (st.skillCalls + 1 : ℕ)

/-- The loop gives up at none of the calls it takes up from `w` on, unless no skill has run. -/
def CallsWithinLimit (step : ℕ) : List ToolCallRequest → LoopState → World → Prop
  | [], _, _ => True
  | call :: calls, st, w =>
    (OverLimit config call st → st.skillCalls = 0) ∧
      ∀ st' w', exec (handleCall rt config env ctx step call st) w = (.ok (.next st'), w') →
        CallsWithinLimit step calls st' w'

def takeAnswer (step : ℕ) (response : LlmResponse) (st : LoopState) : Session LoopState := do
  updateInvestigation ctx.investigationId fun i => { i with currentStep := step }
  observe (.chat step st.messages)
  updateInvestigation ctx.investigationId fun i => { i with
    tokenInput := i.tokenInput + response.promptTokens
    tokenOutput := i.tokenOutput + response.completionTokens }
  saveMessage ctx.investigationId st.sequence .assistant
    (env.dumpMessage (assistantMessage response)) none
  pure { st with
    messages := st.messages ++ [assistantMessage response]
    sequence := st.sequence + 1 }

/--
In the steps of the run from `step` on, the model does not raise and the loop does not give up
at a call, unless no skill has run.
-/
def StepsGoOn (step : ℕ) (st : LoopState) (w : World) : ℕ → Prop
  | 0 => True
  | remaining + 1 =>
    (∀ e, env.chat step st.messages = .error e → st.skillCalls = 0) ∧
    (∀ response st' w', env.chat step st.messages = .ok response →
      exec (takeAnswer env ctx step response st) w = (.ok st', w') →
      CallsWithinLimit rt config env ctx step response.toolCalls st' w') ∧
    ∀ st' w', exec (agentStep rt config env ctx step st) w = (.ok (.next st'), w') →
      StepsGoOn (step + 1) st' w' remaining

end

section WaysOut

variable {rt : Runtime} {config : InvestigationConfig} {env : AgentEnv}
  {ctx : InvestigationContext} {st : LoopState} {step : ℕ} {call : ToolCallRequest} {w w' : World}
  {flow : Flow}

theorem updateInvestigation_idle {f : Investigation → Investigation}
    (h : exec (updateInvestigation ctx.investigationId f) w = (.ok (), w'))
    (hf : ∀ i, (f i).skillCallCount = i.skillCallCount) :
    KeepsCallCount ctx.investigationId w w' ∧ w'.out.agentLog = w.out.agentLog := by
  refine ⟨(updateInvestigation_keepsCallCount hf).of_exec h, ?_⟩
  cases h
  rfl

/-- A submission leaves the counter alone and the loop goes on, or the counter is stored. -/
theorem handleSubmit_counter
    (h : exec (handleSubmit rt config env ctx step call st) w = (.ok flow, w')) :
    (∃ st', flow = .next st' ∧ KeepsCallCount ctx.investigationId w w') ∨
      ∃ result, flow = .done result ∧ w'.out.agentLog = w.out.agentLog ∧
        w'.db.skillCallCount ctx.investigationId =
          (w.db.skillCallCount ctx.investigationId).map fun _ => st.skillCalls := by
  unfold handleSubmit at h
  split at h
  · obtain ⟨st', w₁, hanswer, h⟩ := exec_bind_ok.mp h
    cases h
    exact .inl ⟨st', rfl, (answerCall_keepsCallCount _).of_exec hanswer⟩
  · split at h
    · cases h
    · split at h
      · cases h
        exact .inr ⟨_, rfl, rfl, skillCallCount_modify (fun _ => rfl) _ _⟩
      · obtain ⟨now, w₀, hnow, h⟩ := exec_bind_ok.mp h
        obtain ⟨⟨⟩, w₁, hreject, h⟩ := exec_bind_ok.mp h
        obtain ⟨hrejected, hlog⟩ := updateInvestigation_idle hreject fun _ => rfl
        have hclock : KeepsCallCount ctx.investigationId w w₀ := (respects_utcNow _ _).of_exec hnow
        have hkept : KeepsCallCount ctx.investigationId w w₁ := hrejected.trans hclock
        have hlog : w₁.out.agentLog = w.out.agentLog := by
          cases hnow
          exact hlog
        rw [exec_query_bind] at h
        split at h
        · cases h
          refine .inr ⟨_, rfl, hlog, ?_⟩
          rw [← hkept]
          exact skillCallCount_modify (fun _ => rfl) _ _
        · rw [observe, exec_setRedis_bind] at h
          obtain ⟨st', w₂, hanswer, h⟩ := exec_bind_ok.mp h
          cases h
          exact .inl ⟨st', rfl, ((answerCall_keepsCallCount _).of_exec hanswer).trans hkept⟩

/-- A skill leaves the counter of the investigation alone, also where the loop gives up. -/
theorem handleSkill_counter
    (h : exec (handleSkill rt config env ctx step call st) w = (.ok flow, w')) :
    (∃ st', flow = .next st' ∧ ¬ config.maxSkillCalls < (st.skillCalls + 1 : ℕ) ∧
      KeepsCallCount ctx.investigationId w w') ∨
      ∃ result, flow = .done result ∧ config.maxSkillCalls < (st.skillCalls + 1 : ℕ) ∧ w' = w := by
  unfold handleSkill at h
  dsimp only at h
  split at h
  · rename_i hover
    cases h
    exact .inr ⟨_, rfl, hover, rfl⟩
  · rename_i hwithin
    obtain ⟨result, w₁, hresult, h⟩ := exec_bind_ok.mp h
    obtain ⟨st', w₂, hanswer, h⟩ := exec_bind_ok.mp h
    cases h
    have hkept := executeSkillWithRetry_keepsCallCount.of_exec hresult
    exact .inl ⟨st', rfl, hwithin, ((answerCall_keepsCallCount _).of_exec hanswer).trans hkept⟩

theorem handleCall_counter
    (h : exec (handleCall rt config env ctx step call st) w = (.ok flow, w')) :
    (∃ st', flow = .next st' ∧ ¬ OverLimit config call st ∧
      KeepsCallCount ctx.investigationId w w') ∨
    (∃ result, flow = .done result ∧ OverLimit config call st ∧ w' = w) ∨
    ∃ result, flow = .done result ∧ ¬ OverLimit config call st ∧
      w'.out.agentLog = w.out.agentLog ∧ w'.db.skillCallCount ctx.investigationId =
        (w.db.skillCallCount ctx.investigationId).map fun _ => st.skillCalls := by
  unfold handleCall at h
  split at h
  · rename_i hsubmit
    have hwithin : ¬ OverLimit config call st := fun hover => hover.1 hsubmit
    rcases handleSubmit_counter h with ⟨st', rfl, hkept⟩ | ⟨result, rfl, hstored⟩
    · exact .inl ⟨st', rfl, hwithin, hkept⟩
    · exact .inr (.inr ⟨result, rfl, hwithin, hstored⟩)
  · rename_i hskill
    rcases handleSkill_counter h with ⟨st', rfl, hwithin, hkept⟩ | ⟨result, rfl, hover, rfl⟩
    · exact .inl ⟨st', rfl, fun hover => hwithin hover.2, hkept⟩
    · exact .inr (.inl ⟨result, rfl, ⟨hskill, hover⟩, rfl⟩)

theorem handleCalls_next {calls : List ToolCallRequest} {st' : LoopState}
    (h : exec (handleCalls rt config env ctx step calls st) w = (.ok (.next st'), w')) :
    CallsWithinLimit rt config env ctx step calls st w ∧
      KeepsCallCount ctx.investigationId w w' := by
  induction calls generalizing st w with
  | nil =>
    cases h
    exact ⟨trivial, rfl⟩
  | cons call calls ih =>
    obtain ⟨flow, w₁, hcall, h⟩ := exec_bind_ok.mp h
    rcases handleCall_counter hcall with ⟨st₁, rfl, hwithin, hkept⟩ | ⟨_, rfl, -⟩ | ⟨_, rfl, -⟩
    · obtain ⟨hcalls, hrest⟩ := ih h
      refine ⟨⟨fun hover => absurd hover hwithin, fun st₂ w₂ h₂ => ?_⟩, hrest.trans hkept⟩
      rw [hcall] at h₂
      cases h₂
      exact hcalls
    · cases h
    · cases h

/-- How a step ends: the model raises, or its answer asks for no call, or the calls decide. -/
theorem agentStep_counter
    (h : exec (agentStep rt config env ctx step st) w = (.ok flow, w')) :
    (∃ e result, env.chat step st.messages = .error e ∧ flow = .done result ∧
      w'.out.agentLog = w.out.agentLog ++ [.chat step st.messages] ∧
      KeepsCallCount ctx.investigationId w w') ∨
    (∃ response st', env.chat step st.messages = .ok response ∧ response.toolCalls = [] ∧
      flow = .next st' ∧ KeepsCallCount ctx.investigationId w w') ∨
    ∃ response st₁ w₁, env.chat step st.messages = .ok response ∧
      exec (takeAnswer env ctx step response st) w = (.ok st₁, w₁) ∧
      KeepsCallCount ctx.investigationId w w₁ ∧
      exec (handleCalls rt config env ctx step response.toolCalls st₁) w₁ = (.ok flow, w') := by
  obtain ⟨⟨⟩, w₁, hstep, h⟩ := exec_bind_ok.mp h
  obtain ⟨hkept, hlog⟩ := updateInvestigation_idle hstep fun _ => rfl
  rw [observe, exec_setRedis_bind] at h
  split at h
  · rename_i e hchat
    cases h
    exact .inl ⟨e, _, hchat, rfl, congrArg (· ++ _) hlog, hkept⟩
  · rename_i response hchat
    obtain ⟨⟨⟩, w₂, htokens, h⟩ := exec_bind_ok.mp h
    have hkept : KeepsCallCount ctx.investigationId w w₂ :=
      (updateInvestigation_idle htokens fun _ => rfl).1.trans hkept
    dsimp only at h
    split at h
    · rename_i hnone
      obtain ⟨st', w₃, hremind, h⟩ := exec_bind_ok.mp h
      cases h
      refine .inr (.inl ⟨response, st', hchat, hnone, rfl, ?_⟩)
      exact ((remind_keepsCallCount _).of_exec hremind).trans hkept
    · rw [saveMessage, exec_modify_bind] at h
      refine .inr (.inr ⟨response, _, _, hchat, ?_, ?_, h⟩)
      · cases hstep
        cases htokens
        rfl
      · exact hkept

end WaysOut

def logSince (w w' : World) : List AgentEvent := w'.out.agentLog.drop w.out.agentLog.length

/-- The run from `w₀` stands before the calls `rest`, in the state `st`. -/
def Stands (rt : Runtime) (config : InvestigationConfig) (env : AgentEnv)
    (ctx : InvestigationContext) (w₀ : World) (step : ℕ) (rest : List ToolCallRequest)
    (st : LoopState) (w : World) : Prop :=
  ∃ p, LoopReaches config env ctx (w₀.loopRecord ctx.investigationId) p ∧ ShowsPoint ctx p w ∧
    FlowAt rt config ctx step rest (.next st) p

section Runs

variable {rt : Runtime} {config : InvestigationConfig} {env : AgentEnv}
  {ctx : InvestigationContext} {st st' : LoopState} {step : ℕ} {call : ToolCallRequest}
  {rest : List ToolCallRequest} {w₀ w w' : World} {result : AgentLoopResult}

theorem closureRetries_of_count {n : ℕ}
    (h : w.db.skillCallCount ctx.investigationId = some n) :
    (w.loopRecord ctx.investigationId).closureRetries.isSome := by
  obtain ⟨i, hi, -⟩ := Option.map_eq_some_iff.mp h
  rw [World.loopRecord, hi]
  rfl

/-- The calls attempted so far are those the loop has counted. -/
theorem Stands.attemptedCalls (h : Stands rt config env ctx w₀ step rest st w)
    (hfresh : w₀.db.skillCallCount ctx.investigationId = some 0) :
    attemptedCalls (logSince w₀ w) = st.skillCalls := by
  obtain ⟨p, hreach, hshows, -, -, hattempts, rfl⟩ := h
  have hlog : logSince w₀ w = p.since (w₀.loopRecord ctx.investigationId) :=
    congrArg (fun r : LoopRecord => r.log.drop w₀.out.agentLog.length) hshows
  rw [hlog]
  exact attemptedCalls_reached (closureRetries_of_count hfresh) hreach hattempts

theorem Stands.handleCall (h : Stands rt config env ctx w₀ step (call :: rest) st w)
    (hrun : exec (handleCall rt config env ctx step call st) w = (.ok (.next st'), w')) :
    Stands rt config env ctx w₀ step rest st' w' := by
  obtain ⟨p, hreach, hshows, rfl, hpending, hattempts, rfl⟩ := h
  obtain ⟨q, hpq, hq, hflow⟩ :=
    @handleCall_tracks rt config env ctx p call rest hpending hattempts w hshows
  rw [hrun] at hq hflow
  exact ⟨q, hreach.trans hpq, hq, hflow _ rfl⟩

theorem Stands.agentStep (h : Stands rt config env ctx w₀ step [] st w)
    (hsteps : step < config.maxSteps.toNat)
    (hrun : exec (agentStep rt config env ctx (step + 1) st) w = (.ok (.next st'), w')) :
    Stands rt config env ctx w₀ (step + 1) [] st' w' := by
  obtain ⟨p, hreach, hshows, rfl, hpending, hattempts, rfl⟩ := h
  obtain ⟨q, hpq, hq, hflow⟩ :=
    @agentStep_tracks rt config env ctx p hpending hattempts hsteps w hshows
  rw [hrun] at hq hflow
  exact ⟨q, hreach.trans hpq, hq, hflow _ rfl⟩

theorem showsPoint_ask {q : LoopPoint} {m : ChatMessage} {content : String}
    (hm : m.toolCallId = none) (hw : ShowsPoint ctx q w) :
    ShowsPoint ctx (q.ask ctx.investigationId m content) { w with db := { w.db with
      messages := w.db.messages ++ [{
        investigationId := ctx.investigationId
        role := m.role
        content
        toolCallId := none
        sequence := q.state.sequence }] } } := by
  simp only [ShowsPoint, World.loopRecord] at hw ⊢
  simp [LoopPoint.ask, LoopPoint.append, hm, ← hw]

theorem Stands.takeAnswer {response : LlmResponse}
    (h : Stands rt config env ctx w₀ step [] st w) (hsteps : step < config.maxSteps.toNat)
    (hchat : env.chat (step + 1) st.messages = .ok response) (hcalls : response.toolCalls ≠ [])
    (hrun : exec (takeAnswer env ctx (step + 1) response st) w = (.ok st', w')) :
    Stands rt config env ctx w₀ (step + 1) response.toolCalls st' w' := by
  obtain ⟨p, hreach, hshows, rfl, hpending, hattempts, rfl⟩ := h
  have hchatted : LoopStep config env ctx p p.chat := .chatted hsteps hpending hattempts
  have hasked : LoopStep config env ctx p.chat (p.chat.ask ctx.investigationId
      (assistantMessage response) (env.dumpMessage (assistantMessage response))) :=
    .asked hpending hattempts rfl hchat hcalls
  obtain ⟨⟨⟩, w₁, hstep, hrun⟩ := exec_bind_ok.mp hrun
  have hw₁ : ShowsPoint ctx p w₁ := by
    cases hstep
    exact showsPoint_updateInvestigation (fun _ => rfl) hshows
  rw [observe, exec_setRedis_bind] at hrun
  obtain ⟨⟨⟩, w₂, htokens, hrun⟩ := exec_bind_ok.mp hrun
  have hw₂ : ShowsPoint ctx p.chat w₂ := by
    cases htokens
    refine showsPoint_updateInvestigation (fun _ => rfl) ?_
    simp only [ShowsPoint, World.loopRecord] at hw₁ ⊢
    simp [LoopPoint.chat, ← hw₁]
  rw [saveMessage, exec_modify_bind] at hrun
  cases hrun
  exact ⟨_, (hreach.tail hchatted).tail hasked, showsPoint_ask rfl hw₂, rfl, rfl, hattempts, rfl⟩

/-- Where the calls of an answer end the run, the counter was stored unless they went over the
limit. -/
theorem handleCalls_account {calls : List ToolCallRequest}
    (hfresh : w₀.db.skillCallCount ctx.investigationId = some 0)
    (h : Stands rt config env ctx w₀ step calls st w)
    (hcount : w.db.skillCallCount ctx.investigationId = some 0)
    (hrun : exec (handleCalls rt config env ctx step calls st) w = (.ok (.done result), w')) :
    w'.db.skillCallCount ctx.investigationId = some (attemptedCalls (logSince w₀ w')) ↔
      CallsWithinLimit rt config env ctx step calls st w := by
  induction calls generalizing st w with
  | nil => cases hrun
  | cons call calls ih =>
    obtain ⟨flow, w₁, hcall, hrest⟩ := exec_bind_ok.mp hrun
    have hattempted := h.attemptedCalls hfresh
    rcases handleCall_counter hcall with ⟨st₁, rfl, hwithin, hkept⟩ |
      ⟨result', rfl, hover, rfl⟩ | ⟨result', rfl, hwithin, hlog, hstored⟩
    · refine (ih (h.handleCall hcall) (hkept.trans hcount) hrest).trans ?_
      constructor
      · intro hcalls
        refine ⟨fun hover => absurd hover hwithin, fun st₂ w₂ h₂ => ?_⟩
        rw [hcall] at h₂
        cases h₂
        exact hcalls
      · exact fun hcalls => hcalls.2 st₁ w₁ hcall
    · cases hrest
      rw [hcount, hattempted, Option.some_inj]
      constructor
      · intro hzero
        refine ⟨fun _ => hzero.symm, fun st₂ w₂ h₂ => ?_⟩
        rw [hcall] at h₂
        cases h₂
      · exact fun hcalls => (hcalls.1 hover).symm
    · cases hrest
      have hsince : logSince w₀ w' = logSince w₀ w := by rw [logSince, hlog, logSince]
      rw [hstored, hcount, hsince, hattempted]
      refine iff_of_true rfl ⟨fun hover => absurd hover hwithin, fun st₂ w₂ h₂ => ?_⟩
      rw [hcall] at h₂
      cases h₂

theorem attemptedCalls_chat {messages : List ChatMessage}
    (hlog : w'.out.agentLog = w.out.agentLog ++ [.chat step messages]) :
    attemptedCalls (logSince w₀ w') = attemptedCalls (logSince w₀ w) := by
  have hnone (n : ℕ) : attemptNumbers ([AgentEvent.chat step messages].drop n) = [] := by
    cases n with
    | zero => rfl
    | succ n => rw [List.drop_succ_cons, List.drop_nil]; rfl
  have hnumbers : attemptNumbers (logSince w₀ w') = attemptNumbers (logSince w₀ w) := by
    rw [logSince, hlog, List.drop_append, attemptNumbers, List.filterMap_append]
    exact (congrArg _ (hnone _)).trans (List.append_nil _)
  rw [attemptedCalls, hnumbers, attemptedCalls]

/-- A step after which the loop goes on is as it should be, and the rest of the run decides. -/
theorem stepsGoOn_next {remaining : ℕ}
    (hstep : exec (agentStep rt config env ctx step st) w = (.ok (.next st'), w')) :
    StepsGoOn rt config env ctx step st w (remaining + 1) ↔
      StepsGoOn rt config env ctx (step + 1) st' w' remaining := by
  constructor
  · exact fun hgoes => hgoes.2.2 st' w' hstep
  · intro hrest
    refine ⟨fun e he => ?_, fun response st₁ w₁ hresponse htake => ?_, fun st₂ w₂ h₂ => ?_⟩
    · rcases agentStep_counter hstep with ⟨_, _, -, hdone, -⟩ | ⟨_, _, hchat, -⟩ |
        ⟨_, _, _, hchat, -⟩
      · cases hdone
      · rw [hchat] at he
        cases he
      · rw [hchat] at he
        cases he
    · rcases agentStep_counter hstep with ⟨_, _, -, hdone, -⟩ | ⟨_, _, hchat, hnone, -⟩ |
        ⟨_, _, _, hchat, htaken, -, hcalls⟩
      · cases hdone
      · rw [hchat] at hresponse
        cases hresponse
        rw [hnone]
        trivial
      · rw [hchat] at hresponse
        cases hresponse
        rw [htaken] at htake
        cases htake
        exact (handleCalls_next hcalls).1
    · rw [hstep] at h₂
      cases h₂
      exact hrest

/-- A step that ends the run leaves the account right exactly if it is as it should be. -/
theorem agentStep_account {remaining : ℕ}
    (hfresh : w₀.db.skillCallCount ctx.investigationId = some 0)
    (h : Stands rt config env ctx w₀ step [] st w)
    (hcount : w.db.skillCallCount ctx.investigationId = some 0)
    (hlt : step < config.maxSteps.toNat)
    (hstep : exec (agentStep rt config env ctx (step + 1) st) w = (.ok (.done result), w')) :
    w'.db.skillCallCount ctx.investigationId = some (attemptedCalls (logSince w₀ w')) ↔
      StepsGoOn rt config env ctx (step + 1) st w (remaining + 1) := by
  have hends (st₂ : LoopState) (w₂ : World) :
      exec (agentStep rt config env ctx (step + 1) st) w ≠ (.ok (.next st₂), w₂) := by
    rw [hstep]
    nofun
  rcases agentStep_counter hstep with ⟨e, result', hchat, -, hlog, hkept⟩ |
    ⟨_, _, -, -, hnext, -⟩ | ⟨response, st₁, w₁, hchat, htake, hkept, hcalls⟩
  · rw [hkept, hcount, attemptedCalls_chat hlog, h.attemptedCalls hfresh, Option.some_inj]
    constructor
    · intro hzero
      refine ⟨fun _ _ => hzero.symm, fun response st₁ w₁ hresponse => ?_, fun st₂ w₂ h₂ => ?_⟩
      · rw [hchat] at hresponse
        cases hresponse
      · exact absurd h₂ (hends st₂ w₂)
    · exact fun hgoes => (hgoes.1 e hchat).symm
  · cases hnext
  · have hne : response.toolCalls ≠ [] := by
      intro hnil
      rw [hnil] at hcalls
      cases hcalls
    refine (handleCalls_account hfresh (h.takeAnswer hlt hchat hne htake) (hkept.trans hcount)
      hcalls).trans ?_
    constructor
    · intro hwithin
      refine ⟨fun e he => ?_, fun response' st₂ w₂ hresponse htaken => ?_, fun st₂ w₂ h₂ => ?_⟩
      · rw [hchat] at he
        cases he
      · rw [hchat] at hresponse
        cases hresponse
        rw [htake] at htaken
        cases htaken
        exact hwithin
      · exact absurd h₂ (hends st₂ w₂)
    · exact fun hgoes => hgoes.2.1 response st₁ w₁ hchat htake

/-- A run ends with the account right exactly if its steps go on until the counter is stored. -/
theorem agentSteps_account {remaining : ℕ}
    (hfresh : w₀.db.skillCallCount ctx.investigationId = some 0)
    (h : Stands rt config env ctx w₀ step [] st w)
    (hcount : w.db.skillCallCount ctx.investigationId = some 0)
    (hsteps : step + remaining = config.maxSteps.toNat)
    (hrun : exec (agentSteps rt config env ctx (step + 1) st remaining) w = (.ok result, w')) :
    w'.db.skillCallCount ctx.investigationId = some (attemptedCalls (logSince w₀ w')) ↔
      StepsGoOn rt config env ctx (step + 1) st w remaining := by
  induction remaining generalizing step st w with
  | zero =>
    obtain ⟨⟨⟩, w₁, hstore, hrest⟩ := exec_bind_ok.mp hrun
    cases hrest
    cases hstore
    refine iff_of_true ?_ trivial
    rw [skillCallCount_modify (g := fun _ => st.skillCalls) fun _ => rfl, hcount]
    exact congrArg some (h.attemptedCalls hfresh).symm
  | succ remaining ih =>
    obtain ⟨flow, w₁, hstep, hrest⟩ := exec_bind_ok.mp hrun
    have hlt : step < config.maxSteps.toNat := by omega
    cases flow with
    | next st₁ =>
      have hkept : KeepsCallCount ctx.investigationId w w₁ := by
        rcases agentStep_counter hstep with ⟨_, _, -, hdone, -⟩ | ⟨_, _, -, -, -, hkept⟩ |
          ⟨_, _, _, -, -, hkept, hcalls⟩
        · cases hdone
        · exact hkept
        · exact (handleCalls_next hcalls).2.trans hkept
      rw [stepsGoOn_next hstep]
      exact ih (h.agentStep hlt hstep) (hkept.trans hcount) (by omega) hrest
    | done result' =>
      cases hrest
      exact agentStep_account hfresh h hcount hlt hstep

end Runs

def openConversation (env : AgentEnv) (ctx : InvestigationContext) : Session Unit := do
  saveMessage ctx.investigationId 0 .system (env.prompts ctx).1 none
  saveMessage ctx.investigationId 1 .user (env.prompts ctx).2 none

/-- The run of `AgentLoop.run` from `w` loses no count of its skill calls: in none of its steps
does the model raise, or the loop give up at a call, once a skill has run. -/
def KeepsAccount (rt : Runtime) (config : InvestigationConfig) (env : AgentEnv)
    (ctx : InvestigationContext) (w : World) : Prop :=
  StepsGoOn rt config env ctx 1 (openingPoint env ctx (w.loopRecord ctx.investigationId)).state
    (exec (openConversation env ctx) w).2 config.maxSteps.toNat

/-- What a returned run says of its skill calls. -/
structure Accounts (config : InvestigationConfig) (ctx : InvestigationContext) (w w' : World) :
    Prop where
  skillCallCount : w'.db.skillCallCount ctx.investigationId =
    some (attemptedCalls (logSince w w'))
  atLeast : attemptedCalls (logSince w w') ≤
    (w'.db.toolCalls.filter (·.investigationId = ctx.investigationId)).length
  atMost : ((w'.db.toolCalls.filter (·.investigationId = ctx.investigationId)).length : ℤ) ≤
    (config.skillMaxRetries + 1) * attemptedCalls (logSince w w')

section Account

variable {rt : Runtime} {config : InvestigationConfig} {env : AgentEnv}
  {ctx : InvestigationContext} {w w' : World} {result : AgentLoopResult}

theorem rows_of_run (hnew : ∀ row ∈ w.db.toolCalls, row.investigationId ≠ ctx.investigationId)
    (hrun : exec (agentRun rt config env ctx) w = (.ok result, w')) :
    ∃ p, LoopReaches config env ctx (w.loopRecord ctx.investigationId) p ∧
      logSince w w' = p.since (w.loopRecord ctx.investigationId) ∧
      (w'.db.toolCalls.filter (·.investigationId = ctx.investigationId)).length =
        (attemptNumbers (logSince w w')).length := by
  obtain ⟨p, hreach, hrecord, -⟩ := agentRun_reaches rt config env ctx w
  rw [hrun] at hrecord
  have hlog : logSince w w' = p.since (w.loopRecord ctx.investigationId) :=
    congrArg (fun r : LoopRecord => r.log.drop w.out.agentLog.length) hrecord
  obtain ⟨rows, hrows, hids, hresults⟩ := (recorded_reached hreach).rows
  have htool : w'.db.toolCalls = w.db.toolCalls ++ rows :=
    (congrArg LoopRecord.toolCalls hrecord).trans hrows
  have hold : w.db.toolCalls.filter (·.investigationId = ctx.investigationId) = [] := by
    rw [List.filter_eq_nil_iff]
    intro row hrow
    simpa using hnew row hrow
  have hadded : rows.filter (·.investigationId = ctx.investigationId) = rows := by
    rw [List.filter_eq_self]
    intro row hrow
    exact decide_eq_true (hids row hrow)
  refine ⟨p, hreach, hlog, ?_⟩
  rw [htool, List.filter_append, hold, hadded, List.nil_append, hresults.length_eq, hlog]

theorem counter_of_run (hfresh : w.db.skillCallCount ctx.investigationId = some 0)
    (hrun : exec (agentRun rt config env ctx) w = (.ok result, w')) :
    w'.db.skillCallCount ctx.investigationId = some (attemptedCalls (logSince w w')) ↔
      KeepsAccount rt config env ctx w := by
  have hopened : exec (agentRun rt config env ctx) w = exec (agentSteps rt config env ctx 1
      (openingPoint env ctx (w.loopRecord ctx.investigationId)).state config.maxSteps.toNat)
      (exec (openConversation env ctx) w).2 := rfl
  have hshows : ShowsPoint ctx (openingPoint env ctx (w.loopRecord ctx.investigationId))
      (exec (openConversation env ctx) w).2 := by
    rw [openConversation, saveMessage, saveMessage, exec_modify_bind, Session.modify, exec_write]
    simp [ShowsPoint, World.loopRecord, openingPoint, LoopPoint.append]
  rw [hopened] at hrun
  exact agentSteps_account hfresh ⟨_, .refl, hshows, rfl, rfl, rfl, rfl⟩ hfresh (Nat.zero_add _)
    hrun

/--
A run that returns has the count of its attempted skill calls and the rows of their attempts
exactly if the model raises, or the loop gives up at a call, only before any skill has run.
-/
theorem skillCalls_accounted_iff
    (hfresh : w.db.skillCallCount ctx.investigationId = some 0)
    (hnew : ∀ row ∈ w.db.toolCalls, row.investigationId ≠ ctx.investigationId)
    (hrun : exec (agentRun rt config env ctx) w = (.ok result, w')) :
    Accounts config ctx w w' ↔ KeepsAccount rt config env ctx w := by
  obtain ⟨p, hreach, hlog, hrows⟩ := rows_of_run hnew hrun
  constructor
  · exact fun haccounts => (counter_of_run hfresh hrun).mp haccounts.skillCallCount
  · intro hkeeps
    refine ⟨(counter_of_run hfresh hrun).mpr hkeeps, ?_, ?_⟩
    · rw [hrows]
      exact List.toFinset_card_le _
    · rw [hrows, hlog]
      exact attempts_le (closureRetries_of_count hfresh) hreach

end Account

theorem skillCalls_accounted_failed_skill :
    KeepsAccount (sampleRuntime .free []) {} failedSkillEnv failedSkillContext
      failedSkillWorld := by
  have hreturned : ((returned (agentRun (sampleRuntime .free []) {} failedSkillEnv
      failedSkillContext) failedSkillWorld).map fun _ => ()) = some () := by decide +kernel
  obtain ⟨result, hresult, -⟩ := Option.map_eq_some_iff.mp hreturned
  have hrun := exec_of_returned hresult
  refine (skillCalls_accounted_iff (w := failedSkillWorld) (by decide) nofun hrun).mp ⟨?_, ?_, ?_⟩
  · decide +kernel
  · decide +kernel
  · decide +kernel

def raisingEnv : AgentEnv where
  chat step _ := if step = 1 then
      .ok { toolCalls := [{ id := "call", name := "query_asset", arguments := .obj [] }] }
    else .error .external
  clock _ := 0

theorem skillCalls_not_accounted :
    ¬ ∀ (rt : Runtime) (config : InvestigationConfig) (env : AgentEnv)
      (ctx : InvestigationContext) (w w' : World) (result : AgentLoopResult),
      w.db.skillCallCount ctx.investigationId = some 0 →
      (∀ row ∈ w.db.toolCalls, row.investigationId ≠ ctx.investigationId) →
      exec (agentRun rt config env ctx) w = (.ok result, w') → Accounts config ctx w w' := by
  intro h
  have hreturned : ((returned (agentRun (sampleRuntime .free []) {} raisingEnv
      failedSkillContext) failedSkillWorld).map fun _ => ()) = some () := by decide +kernel
  obtain ⟨result, hresult, -⟩ := Option.map_eq_some_iff.mp hreturned
  have haccounts := h (sampleRuntime .free []) {} raisingEnv failedSkillContext failedSkillWorld
    _ result (by decide) nofun (exec_of_returned hresult)
  exact absurd haccounts.skillCallCount (by decide +kernel)

end Minsight

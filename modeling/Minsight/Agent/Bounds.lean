import Mathlib.Order.Interval.Finset.Nat
import Minsight.Agent.Steps

/-! # What the loop spends and how it ends

The limits of the configuration bound the calls of the model, the skills, their attempts and
the submissions that are sent back. The loop completes only with an accepted submission, and
what closure counts as called has been attempted and recorded.
-/

namespace Minsight

open Tx Session

namespace AgentEvent

def isChat : AgentEvent → Bool
  | chat _ _ => true
  | _ => false

def isResumed : AgentEvent → Bool
  | resumed => true
  | _ => false

def number? : AgentEvent → Option ℕ
  | attempt number _ _ _ => some number
  | _ => none

def outcome? : AgentEvent → Option (String × Bool)
  | attempt _ skill success _ => some (skill, success)
  | _ => none

def statementFailed : AgentEvent → Bool
  | attempt _ _ _ failed => failed
  | _ => false

end AgentEvent

/-- The numbers of the skill calls attempted, once for each attempt. -/
def attemptNumbers (log : List AgentEvent) : List ℕ := log.filterMap AgentEvent.number?

def attemptOutcomes (log : List AgentEvent) : List (String × Bool) :=
  log.filterMap AgentEvent.outcome?

def LoopPoint.since (start : LoopRecord) (p : LoopPoint) : List AgentEvent :=
  p.record.log.drop start.log.length

section

variable {rt : Runtime} {config : InvestigationConfig} {env : AgentEnv}
  {ctx : InvestigationContext} {start : LoopRecord} {p q : LoopPoint}

theorem since_append (h : start.log <+: p.record.log) {entries : List AgentEvent}
    (hlog : q.record.log = p.record.log ++ entries) :
    q.since start = p.since start ++ entries := by
  rw [LoopPoint.since, hlog, List.drop_append_of_le_length h.length_le]
  rfl

theorem log_eq_since (h : start.log <+: p.record.log) :
    p.record.log = start.log ++ p.since start := by
  obtain ⟨log, hlog⟩ := h
  rw [LoopPoint.since, ← hlog, List.drop_left]

theorem log_grows (hstep : LoopStep config env ctx p q) : p.record.log <+: q.record.log := by
  cases hstep with
  | chatted _ _ _ => exact List.prefix_append _ _
  | reminded _ => exact List.prefix_refl _
  | asked _ _ _ _ _ => exact List.prefix_refl _
  | counted _ _ _ => exact List.prefix_refl _
  | attempted _ _ _ _ => exact List.prefix_append _ _
  | rejected _ _ => exact List.prefix_refl _
  | resumed _ _ _ => exact List.prefix_append _ _
  | answered _ _ => exact List.prefix_refl _

structure Spent (config : InvestigationConfig) (start : LoopRecord) (p : LoopPoint) : Prop where
  grows : start.log <+: p.record.log
  chats : (p.since start).countP AgentEvent.isChat = p.step
  steps : p.step ≤ config.maxSteps.toNat
  counted : p.attempts ≠ none → 0 < p.state.skillCalls
  numbers : ∀ n ∈ attemptNumbers (p.since start),
    0 < n ∧ n ≤ p.state.skillCalls ∧ n ≤ config.maxSkillCalls.toNat
  current : ∀ k, p.attempts = some k →
    (attemptNumbers (p.since start)).count p.state.skillCalls = k
  attempts : ∀ n, (attemptNumbers (p.since start)).count n ≤ (config.skillMaxRetries + 1).toNat
  resumed : (p.since start).countP AgentEvent.isResumed ≤ config.maxClosureRetries.toNat
  retries : ∃ n, p.record.closureRetries = some n ∧
    (p.since start).countP AgentEvent.isResumed ≤ n

theorem Spent.idle (h : Spent config start p) (hlog : q.record.log = p.record.log)
    (hstep : q.step = p.step) (hcalls : q.state.skillCalls = p.state.skillCalls)
    (hattempts : q.attempts = none ∨ q.attempts = p.attempts)
    (hretries : ∀ n, p.record.closureRetries = some n →
      ∃ m, q.record.closureRetries = some m ∧ n ≤ m) : Spent config start q := by
  have hsince : q.since start = p.since start := by rw [LoopPoint.since, hlog, LoopPoint.since]
  have hsome {k : ℕ} (hk : q.attempts = some k) : p.attempts = some k := by
    rcases hattempts with hnone | hsame
    · rw [hnone] at hk
      cases hk
    · exact hsame ▸ hk
  refine ⟨hlog ▸ h.grows, ?_, hstep ▸ h.steps, ?_, ?_, ?_, ?_, ?_, ?_⟩
  · rw [hsince, hstep]
    exact h.chats
  · intro hq
    obtain ⟨k, hk⟩ := Option.ne_none_iff_exists'.mp hq
    rw [hcalls]
    exact h.counted (by rw [hsome hk]; nofun)
  · rw [hsince, hcalls]
    exact h.numbers
  · intro k hk
    rw [hsince, hcalls]
    exact h.current k (hsome hk)
  · rw [hsince]
    exact h.attempts
  · rw [hsince]
    exact h.resumed
  · obtain ⟨n, hn, hcount⟩ := h.retries
    obtain ⟨m, hm, hnm⟩ := hretries n hn
    rw [hsince]
    exact ⟨m, hm, hcount.trans hnm⟩

theorem spent_opening (h : start.closureRetries.isSome) :
    Spent config start (openingPoint env ctx start) := by
  have hsince : (openingPoint env ctx start).since start = [] := List.drop_length
  obtain ⟨n, hn⟩ := Option.isSome_iff_exists.mp h
  refine ⟨List.prefix_refl _, ?_, Nat.zero_le _, fun hq => absurd rfl hq, ?_, nofun, ?_, ?_, n, hn, ?_⟩
  · rw [hsince]
    rfl
  all_goals simp [hsince, attemptNumbers]

theorem spent_step (h : Spent config start p) (hstep : LoopStep config env ctx p q) :
    Spent config start q := by
  have grows : start.log <+: q.record.log := h.grows.trans (log_grows hstep)
  cases hstep with
  | chatted steps pending attempts =>
    have hsince : p.chat.since start = p.since start ++ [.chat (p.step + 1) p.state.messages] :=
      since_append h.grows rfl
    have hnumbers : attemptNumbers (p.chat.since start) = attemptNumbers (p.since start) := by
      rw [hsince, attemptNumbers, List.filterMap_append]
      exact List.append_nil _
    have hresumed : (p.chat.since start).countP AgentEvent.isResumed =
        (p.since start).countP AgentEvent.isResumed := by
      rw [hsince, List.countP_append]
      rfl
    refine ⟨grows, ?_, steps, h.counted, hnumbers ▸ h.numbers, hnumbers ▸ h.current,
      hnumbers ▸ h.attempts, hresumed ▸ h.resumed, hresumed ▸ h.retries⟩
    rw [hsince, List.countP_append, h.chats]
    rfl
  | reminded _ => exact h.idle rfl rfl rfl (.inr rfl) fun n hn => ⟨n, hn, le_rfl⟩
  | asked _ _ _ _ _ => exact h.idle rfl rfl rfl (.inr rfl) fun n hn => ⟨n, hn, le_rfl⟩
  | counted _ _ attempts =>
    refine ⟨grows, h.chats, h.steps, fun _ => Nat.succ_pos _, ?_, ?_, h.attempts, h.resumed, h.retries⟩
    · intro n hn
      obtain ⟨hpos, hle, hmax⟩ := h.numbers n hn
      exact ⟨hpos, Nat.le_succ_of_le hle, hmax⟩
    · rintro _ ⟨⟩
      refine List.count_eq_zero_of_not_mem fun hmem => ?_
      exact absurd (h.numbers _ hmem).2.1 (Nat.not_succ_le_self _)
  | @attempted call rest k now pending attempts calls retries =>
    generalize hq : p.attempt (attemptRow env ctx p.step p.state.skillCalls k call now)
      (env.skill p.step p.state.skillCalls k).statementFails = q at grows
    have hcalls : q.state.skillCalls = p.state.skillCalls := by rw [← hq]; rfl
    have hsince : ∃ success failed, q.since start =
        p.since start ++ [.attempt p.state.skillCalls call.name success failed] :=
      ⟨_, _, by rw [← hq]; exact since_append h.grows rfl⟩
    obtain ⟨success, failed, hsince⟩ := hsince
    have hnumbers : attemptNumbers (q.since start) =
        attemptNumbers (p.since start) ++ [p.state.skillCalls] := by
      rw [hsince, attemptNumbers, List.filterMap_append]
      rfl
    have hcurrent : (attemptNumbers (q.since start)).count p.state.skillCalls = k + 1 := by
      rw [hnumbers, List.count_append, h.current k attempts, List.count_singleton_self]
    have hchats : (q.since start).countP AgentEvent.isChat =
        (p.since start).countP AgentEvent.isChat := by
      rw [hsince, List.countP_append]
      rfl
    have hresumed : (q.since start).countP AgentEvent.isResumed =
        (p.since start).countP AgentEvent.isResumed := by
      rw [hsince, List.countP_append]
      rfl
    have hpos : 0 < p.state.skillCalls := h.counted (by rw [attempts]; nofun)
    refine ⟨grows, ?_, ?_, fun _ => hcalls ▸ hpos, ?_, ?_, ?_, hresumed ▸ h.resumed, ?_⟩
    · rw [hchats, h.chats, ← hq]
      rfl
    · rw [← hq]
      exact h.steps
    · intro n hn
      rw [hnumbers, List.mem_append, List.mem_singleton] at hn
      rw [hcalls]
      rcases hn with hold | rfl
      · exact h.numbers n hold
      · exact ⟨hpos, le_rfl, by omega⟩
    · intro k' hk'
      have hk : q.attempts = some (k + 1) := by rw [← hq]; rfl
      obtain rfl : k + 1 = k' := Option.some.inj (hk.symm.trans hk')
      rw [hcalls]
      exact hcurrent
    · intro n
      by_cases hn : n = p.state.skillCalls
      · rw [hn, hcurrent]
        omega
      · rw [hnumbers, List.count_append, List.count_singleton, if_neg (by simpa using Ne.symm hn)]
        exact h.attempts n
    · rw [hresumed, ← hq]
      exact h.retries
  | rejected _ _ =>
    exact h.idle rfl rfl rfl (.inr rfl) fun n hn => ⟨n + 1, by simp [LoopPoint.reject, hn], Nat.le_succ n⟩
  | resumed _ _ retries =>
    have hsince : p.resume.since start = p.since start ++ [.resumed] := since_append h.grows rfl
    have hnumbers : attemptNumbers (p.resume.since start) = attemptNumbers (p.since start) := by
      rw [hsince, attemptNumbers, List.filterMap_append]
      exact List.append_nil _
    have hresumed : (p.resume.since start).countP AgentEvent.isResumed =
        (p.since start).countP AgentEvent.isResumed + 1 := by
      rw [hsince, List.countP_append]
      rfl
    obtain ⟨n, hn, hcount⟩ := h.retries
    have hretries : p.resume.record.closureRetries = some (n + 1) := by
      simp [LoopPoint.resume, LoopPoint.reject, hn]
    have hmax : ((n + 1 : ℕ) : ℤ) ≤ config.maxClosureRetries := by
      have hreject : p.reject.record.closureRetries = some (n + 1) := hretries
      rw [hreject] at retries
      exact retries
    refine ⟨grows, ?_, h.steps, h.counted, hnumbers ▸ h.numbers, hnumbers ▸ h.current,
      hnumbers ▸ h.attempts, ?_, n + 1, hretries, ?_⟩
    · rw [hsince, List.countP_append, h.chats]
      rfl
    · rw [hresumed]
      omega
    · rw [hresumed]
      omega
  | answered _ _ => exact h.idle rfl rfl rfl (.inl rfl) fun n hn => ⟨n, hn, le_rfl⟩

/-- The model made this tool call in its answer to a call of the log. -/
def Offered (env : AgentEnv) (log : List AgentEvent) (call : ToolCallRequest) : Prop :=
  ∃ n messages response, .chat n messages ∈ log ∧ env.chat n messages = .ok response ∧
    call ∈ response.toolCalls

theorem Offered.append {log entries : List AgentEvent} {call : ToolCallRequest}
    (h : Offered env log call) : Offered env (log ++ entries) call := by
  obtain ⟨n, messages, response, hchat, hanswer, hcall⟩ := h
  exact ⟨n, messages, response, List.mem_append_left _ hchat, hanswer, hcall⟩

structure Offers (env : AgentEnv) (start : LoopRecord) (p : LoopPoint) : Prop where
  grows : start.log <+: p.record.log
  asking : p.asking = true → .chat p.step p.state.messages ∈ p.since start
  pending : ∀ call ∈ p.pending, Offered env (p.since start) call

theorem offers_opening : Offers env start (openingPoint env ctx start) :=
  ⟨List.prefix_refl _, nofun, nofun⟩

theorem offers_step (h : Offers env start p) (hstep : LoopStep config env ctx p q) :
    Offers env start q := by
  have grows : start.log <+: q.record.log := h.grows.trans (log_grows hstep)
  cases hstep with
  | chatted _ pending _ =>
    have hsince := since_append (q := p.chat) h.grows rfl
    refine ⟨grows, fun _ => ?_, fun call hcall => ?_⟩
    · rw [hsince]
      exact List.mem_append_right _ (List.mem_singleton_self _)
    · change call ∈ p.pending at hcall
      rw [pending] at hcall
      cases hcall
  | reminded _ => exact ⟨grows, nofun, h.pending⟩
  | asked _ _ asking answer _ =>
    exact ⟨grows, nofun, fun call hcall => ⟨_, _, _, h.asking asking, answer, hcall⟩⟩
  | counted _ _ _ => exact ⟨grows, h.asking, h.pending⟩
  | @attempted call rest k now _ _ _ _ =>
    have hsince := since_append
      (q := p.attempt (attemptRow env ctx p.step p.state.skillCalls k call now)
        (env.skill p.step p.state.skillCalls k).statementFails) h.grows rfl
    refine ⟨grows, fun hasking => ?_, fun c hc => ?_⟩
    · rw [hsince]
      exact List.mem_append_left _ (h.asking hasking)
    · rw [hsince]
      exact (h.pending c hc).append
  | rejected _ _ => exact ⟨grows, h.asking, h.pending⟩
  | resumed _ _ _ =>
    have hsince := since_append (q := p.resume) h.grows rfl
    refine ⟨grows, fun hasking => ?_, fun c hc => ?_⟩
    · rw [hsince]
      exact List.mem_append_left _ (h.asking hasking)
    · rw [hsince]
      exact (h.pending c hc).append
  | answered pending _ =>
    exact ⟨grows, nofun, fun c hc => h.pending c (pending ▸ List.mem_cons_of_mem _ hc)⟩

/-- The skills that count as called were attempted, and every attempt has its row. -/
structure Evidence (ctx : InvestigationContext) (start : LoopRecord) (p : LoopPoint) : Prop where
  grows : start.log <+: p.record.log
  head : p.attempts ≠ none → ∀ call ∈ p.pending.head?, call.name ∈ p.state.skillsCalled
  called : ∀ s, s ∈ p.state.skillsCalled ↔
    (∃ success, (s, success) ∈ attemptOutcomes (p.since start)) ∨
      p.attempts = some 0 ∧ ∃ call ∈ p.pending.head?, call.name = s
  rows : ∃ rows, p.record.toolCalls = start.toolCalls ++ rows ∧
    (∀ r ∈ rows, r.investigationId = ctx.investigationId) ∧
    rows.map (fun r => (r.skillName, r.success)) = attemptOutcomes (p.since start)

theorem evidence_opening : Evidence ctx start (openingPoint env ctx start) := by
  have hsince : (openingPoint env ctx start).since start = [] := List.drop_length
  refine ⟨List.prefix_refl _, fun h => absurd rfl h, fun s => ?_, [], (List.append_nil _).symm, nofun, ?_⟩
  · constructor
    · nofun
    · rintro (⟨success, hmem⟩ | ⟨hattempts, -⟩)
      · rw [hsince] at hmem
        cases hmem
      · cases hattempts
  · rw [hsince]
    rfl

theorem evidence_step (h : Evidence ctx start p) (hstep : LoopStep config env ctx p q) :
    Evidence ctx start q := by
  have grows : start.log <+: q.record.log := h.grows.trans (log_grows hstep)
  cases hstep with
  | chatted _ _ _ =>
    have hsince := since_append (q := p.chat) h.grows rfl
    have houtcomes : attemptOutcomes (p.chat.since start) = attemptOutcomes (p.since start) := by
      rw [hsince, attemptOutcomes, List.filterMap_append]
      exact List.append_nil _
    exact ⟨grows, h.head, houtcomes ▸ h.called, houtcomes ▸ h.rows⟩
  | reminded _ => exact ⟨grows, h.head, h.called, h.rows⟩
  | @asked response pending attempts _ _ _ =>
    have hnone {k : ℕ} : p.attempts ≠ some k := by rw [attempts]; nofun
    refine ⟨grows, fun hq => absurd attempts hq, fun s => (h.called s).trans ?_, h.rows⟩
    constructor
    · rintro (hmem | ⟨hk, -⟩)
      · exact .inl hmem
      · exact absurd hk hnone
    · rintro (hmem | ⟨hk, -⟩)
      · exact .inl hmem
      · exact absurd hk hnone
  | @counted call rest pending skill attempts =>
    have hmem (s : String) :
        s ∈ (p.count call).state.skillsCalled ↔ s ∈ p.state.skillsCalled ∨ s = call.name := by
      simp only [LoopPoint.count]
      split
      · rename_i hcontains
        constructor
        · exact .inl
        · rintro (hs | rfl)
          · exact hs
          · exact List.contains_iff_mem.mp hcontains
      · rw [List.mem_append, List.mem_singleton]
    have hhead (call' : ToolCallRequest) (hcall : call' ∈ (p.count call).pending.head?) :
        call = call' := by
      change call' ∈ p.pending.head? at hcall
      rw [pending] at hcall
      exact Option.some.inj hcall
    refine ⟨grows, fun _ call' hcall => ?_, fun s => ?_, h.rows⟩
    · rw [← hhead call' hcall]
      exact (hmem _).mpr (.inr rfl)
    · rw [hmem, h.called s]
      constructor
      · rintro ((hs | ⟨hk, -⟩) | rfl)
        · exact .inl hs
        · rw [attempts] at hk
          cases hk
        · exact .inr ⟨rfl, call, by change call ∈ p.pending.head?; rw [pending]; rfl, rfl⟩
      · rintro (hs | ⟨-, call', hcall, rfl⟩)
        · exact .inl (.inl hs)
        · exact .inr (congrArg _ (hhead call' hcall).symm)
  | @attempted call rest k now pending attempts calls retries =>
    have hsince := since_append
      (q := p.attempt (attemptRow env ctx p.step p.state.skillCalls k call now)
        (env.skill p.step p.state.skillCalls k).statementFails) h.grows rfl
    generalize hrow : attemptRow env ctx p.step p.state.skillCalls k call now = row at hsince grows
    generalize (env.skill p.step p.state.skillCalls k).statementFails = failed at hsince grows
    have hname : row.skillName = call.name := by rw [← hrow]; rfl
    have houtcomes : attemptOutcomes ((p.attempt row failed).since start) =
        attemptOutcomes (p.since start) ++ [(row.skillName, row.success)] := by
      rw [hsince, attemptOutcomes, List.filterMap_append]
      rfl
    have hhead : call ∈ p.pending.head? := by rw [pending]; rfl
    have hcalled : call.name ∈ p.state.skillsCalled :=
      h.head (by rw [attempts]; nofun) call hhead
    refine ⟨grows, fun _ => h.head (by rw [attempts]; nofun), fun s => ?_, ?_⟩
    · change s ∈ p.state.skillsCalled ↔ _
      rw [houtcomes]
      constructor
      · intro hs
        refine .inl ?_
        rcases (h.called s).mp hs with ⟨success, hold⟩ | ⟨-, call', hcall', rfl⟩
        · exact ⟨success, List.mem_append_left _ hold⟩
        · obtain rfl : call = call' := Option.some.inj (hhead.symm.trans hcall')
          exact ⟨row.success, List.mem_append_right _ (by rw [hname]; exact List.mem_singleton_self _)⟩
      · rintro (⟨success, hs⟩ | ⟨hk, -⟩)
        · rcases List.mem_append.mp hs with hold | hnew
          · exact (h.called s).mpr (.inl ⟨success, hold⟩)
          · obtain ⟨rfl, -⟩ := Prod.mk.inj (List.mem_singleton.mp hnew)
            exact hname ▸ hcalled
        · cases hk
    · obtain ⟨rows, hrows, hids, hmap⟩ := h.rows
      refine ⟨rows ++ [row], ?_, ?_, ?_⟩
      · change p.record.toolCalls ++ [row] = _
        rw [hrows, List.append_assoc]
      · intro r hr
        rcases List.mem_append.mp hr with hold | hnew
        · exact hids r hold
        · rw [List.mem_singleton.mp hnew, ← hrow]
          rfl
      · rw [houtcomes, List.map_append, hmap]
        rfl
  | rejected _ _ => exact ⟨grows, h.head, h.called, h.rows⟩
  | resumed _ _ _ =>
    have hsince := since_append (q := p.resume) h.grows rfl
    have houtcomes : attemptOutcomes (p.resume.since start) = attemptOutcomes (p.since start) := by
      rw [hsince, attemptOutcomes, List.filterMap_append]
      exact List.append_nil _
    exact ⟨grows, h.head, houtcomes ▸ h.called, houtcomes ▸ h.rows⟩
  | @answered call rest content pending ready =>
    refine ⟨grows, fun hq => absurd rfl hq, fun s => (h.called s).trans ?_, h.rows⟩
    constructor
    · rintro (hmem | ⟨hk, -⟩)
      · exact .inl hmem
      · rcases ready with ⟨hnone, -⟩ | ⟨k, hsome⟩
        · rw [hnone] at hk
          cases hk
        · rw [hsome] at hk
          cases hk
    · rintro (hmem | ⟨hk, -⟩)
      · exact .inl hmem
      · cases hk

structure FailureTold (start : LoopRecord) (p : LoopPoint) : Prop where
  grows : start.log <+: p.record.log
  failed : p.record.failed = (start.failed || (p.since start).any AgentEvent.statementFailed)

theorem failureTold_opening : FailureTold start (openingPoint env ctx start) := by
  have hsince : (openingPoint env ctx start).since start = [] := List.drop_length
  refine ⟨List.prefix_refl _, ?_⟩
  rw [hsince]
  exact (Bool.or_false _).symm

theorem failureTold_step (h : FailureTold start p) (hstep : LoopStep config env ctx p q) :
    FailureTold start q := by
  have grows : start.log <+: q.record.log := h.grows.trans (log_grows hstep)
  have logged {e : AgentEvent} (hlog : q.record.log = p.record.log ++ [e])
      (hfailed : q.record.failed = (p.record.failed || e.statementFailed)) :
      FailureTold start q := by
    refine ⟨grows, ?_⟩
    rw [hfailed, since_append h.grows hlog, List.any_append, h.failed, Bool.or_assoc]
    simp
  cases hstep with
  | chatted _ _ _ => exact logged rfl (Bool.or_false _).symm
  | reminded _ => exact ⟨grows, h.failed⟩
  | asked _ _ _ _ _ => exact ⟨grows, h.failed⟩
  | counted _ _ _ => exact ⟨grows, h.failed⟩
  | attempted _ _ _ _ => exact logged rfl rfl
  | rejected _ _ => exact ⟨grows, h.failed⟩
  | resumed _ _ _ => exact logged rfl (Bool.or_false _).symm
  | answered _ _ => exact ⟨grows, h.failed⟩

theorem spent_reached (hrow : start.closureRetries.isSome) (h : LoopReaches config env ctx start p) :
    Spent config start p := by
  refine reached_of_step (fun p q hp hstep => ?_) h (spent_opening hrow)
  exact spent_step hp hstep

theorem offers_reached (h : LoopReaches config env ctx start p) : Offers env start p := by
  refine reached_of_step (fun p q hp hstep => ?_) h offers_opening
  exact offers_step hp hstep

theorem evidence_reached (h : LoopReaches config env ctx start p) : Evidence ctx start p := by
  refine reached_of_step (fun p q hp hstep => ?_) h evidence_opening
  exact evidence_step hp hstep

theorem failureTold_reached (h : LoopReaches config env ctx start p) : FailureTold start p := by
  refine reached_of_step (fun p q hp hstep => ?_) h failureTold_opening
  exact failureTold_step hp hstep

theorem Evidence.attempted (h : Evidence ctx start p) (attempts : p.attempts = none) (s : String) :
    s ∈ p.state.skillsCalled ↔ ∃ success, (s, success) ∈ attemptOutcomes (p.since start) := by
  refine (h.called s).trans ⟨?_, .inl⟩
  rintro (hmem | ⟨hk, -⟩)
  · exact hmem
  · rw [attempts] at hk
    cases hk

end

/-- The result is a submission of the model that passed closure with the skills called so far. -/
def Accepted (rt : Runtime) (config : InvestigationConfig) (env : AgentEnv)
    (ctx : InvestigationContext) (log : List AgentEvent) (result : AgentLoopResult) : Prop :=
  ∃ call closure, Offered env log call ∧ call.name = submitConclusionName ∧
    parseConclusion rt call.arguments = some result.conclusion ∧
    (∀ s, s ∈ result.skillsCalled ↔ ∃ success, (s, success) ∈ attemptOutcomes log) ∧
    evaluateClosure result.conclusion result.skillsCalled (closureTemplate ctx) config.closure =
      .ok closure ∧
    closure.passed = true ∧ result.closureResult = some closure

/--
A run that returns stays within its limits. It completes only with an accepted submission
and otherwise asks for a human.
-/
theorem agent_run_bounds (rt : Runtime) (config : InvestigationConfig) (env : AgentEnv)
    (ctx : InvestigationContext) (w w' : World) (result : AgentLoopResult)
    (hrow : ctx.investigationId < w.db.investigations.length)
    (hrun : exec (agentRun rt config env ctx) w = (.ok result, w')) :
    ∃ log, w'.out.agentLog = w.out.agentLog ++ log ∧
      log.countP AgentEvent.isChat ≤ config.maxSteps.toNat ∧
      (attemptNumbers log).toFinset.card ≤ config.maxSkillCalls.toNat ∧
      (∀ n, (attemptNumbers log).count n ≤ (config.skillMaxRetries + 1).toNat) ∧
      log.countP AgentEvent.isResumed ≤ config.maxClosureRetries.toNat ∧
      (result.investigationStatus = .completed → Accepted rt config env ctx log result) ∧
      (result.investigationStatus ≠ .completed →
        result.conclusion.verdict = .needsHumanReview) := by
  obtain ⟨p, hreach, hrecord, hend⟩ := agentRun_reaches rt config env ctx w
  have hspent := spent_reached (by simp [World.loopRecord, hrow]) hreach
  have hoffers := offers_reached hreach
  have hevidence := evidence_reached hreach
  rw [hrun] at hrecord hend
  refine ⟨p.since (w.loopRecord ctx.investigationId), ?_, ?_, ?_, hspent.attempts, hspent.resumed, ?_, ?_⟩
  · exact (congrArg LoopRecord.log hrecord).trans (log_eq_since hspent.grows)
  · exact hspent.chats.trans_le hspent.steps
  · have hsub : (attemptNumbers (p.since (w.loopRecord ctx.investigationId))).toFinset ⊆
        Finset.Icc 1 config.maxSkillCalls.toNat := by
      intro n hn
      obtain ⟨hpos, -, hmax⟩ := hspent.numbers n (List.mem_toFinset.mp hn)
      exact Finset.mem_Icc.mpr ⟨hpos, hmax⟩
    exact (Finset.card_le_card hsub).trans (by simp)
  · intro hstatus
    cases hend result rfl with
    | @accepted call rest conclusion closure pending submit attempts parsed evaluated passed =>
      have hcall : call ∈ p.pending := pending ▸ List.mem_cons_self
      exact ⟨call, closure, hoffers.pending call hcall, submit, parsed,
        hevidence.attempted attempts, evaluated, passed, rfl⟩
    | degraded status _ => exact absurd hstatus status
  · intro hstatus
    cases hend result rfl with
    | accepted _ _ _ _ _ _ => exact absurd rfl hstatus
    | degraded _ verdict => exact verdict

/-- An investigation in which a required skill fails and the model then confirms the attack. -/
def failedSkillContext : InvestigationContext where
  investigationId := 0
  eventId := 0
  event := { eventKey := "host|user", createdAt := 0 }
  alerts := []
  sop := some (0, {
    alertCategory := "malware"
    name := "malware"
    hypothesisTemplate := some (.obj [("required_skills_before_conclude", .arr [.str "query_asset"])]) })
  modelName := "deepseek-chat"

def failedSkillEnv : AgentEnv where
  chat step _ := .ok { toolCalls := [{
    id := "call"
    name := if step = 1 then "query_asset" else submitConclusionName
    arguments := .obj [("verdict", .str "attack_confirmed")] }] }
  clock _ := 0

def failedSkillWorld : World where
  db := { investigations := [{ eventId := 0, modelName := "deepseek-chat", startedAt := 0 }] }

theorem agent_run_bounds_failed_skill :
    ∃ result w', exec (agentRun (sampleRuntime .free []) {} failedSkillEnv failedSkillContext)
        failedSkillWorld = (.ok result, w') ∧
      ∃ log, w'.out.agentLog = failedSkillWorld.out.agentLog ++ log ∧
        (result.investigationStatus = .completed →
          Accepted (sampleRuntime .free []) {} failedSkillEnv failedSkillContext log result) := by
  have hreturned : ((returned (agentRun (sampleRuntime .free []) {} failedSkillEnv failedSkillContext)
      failedSkillWorld).map fun _ => ()) = some () := by decide +kernel
  obtain ⟨result, hresult, -⟩ := Option.map_eq_some_iff.mp hreturned
  have hrun := exec_of_returned hresult
  have hbounds := agent_run_bounds (sampleRuntime .free []) {} failedSkillEnv failedSkillContext
    failedSkillWorld _ result (by decide) hrun
  obtain ⟨log, hlog, -, -, -, -, haccepted, -⟩ := hbounds
  exact ⟨result, _, hrun, log, hlog, haccepted⟩

/--
A confirmed attack or a likely false positive is returned only after every required skill
was called; its attempts, successful or not, are recorded in the investigation.
-/
theorem required_skills_recorded (rt : Runtime) (config : InvestigationConfig) (env : AgentEnv)
    (ctx : InvestigationContext) (w w' : World) (result : AgentLoopResult)
    (enabled : config.closureEnabled = true)
    (hrun : exec (agentRun rt config env ctx) w = (.ok result, w'))
    (verdict : result.conclusion.verdict = .attackConfirmed ∨
      result.conclusion.verdict = .likelyFalsePositive) :
    ∃ fields required rows, templateFields (closureTemplate ctx) = .ok fields ∧
      templateList fields "required_skills_before_conclude" = .ok required ∧
      w'.db.toolCalls = w.db.toolCalls ++ rows ∧
      ∀ s ∈ required, ∃ row ∈ rows, row.investigationId = ctx.investigationId ∧
        s = .str row.skillName := by
  obtain ⟨p, hreach, hrecord, hend⟩ := agentRun_reaches rt config env ctx w
  have hevidence := evidence_reached hreach
  rw [hrun] at hrecord hend
  obtain ⟨rows, hrows, hids, houtcomes⟩ := hevidence.rows
  cases hend result rfl with
  | accepted pending submit attempts parsed evaluated passed =>
    obtain ⟨fields, required, hfields, hrequired, hcalled⟩ :=
      required_of_passed evaluated enabled verdict passed
    refine ⟨fields, required, rows, hfields, hrequired,
      (congrArg LoopRecord.toolCalls hrecord).trans hrows, fun s hs => ?_⟩
    obtain ⟨name, rfl, hname⟩ := hcalled s hs
    obtain ⟨success, houtcome⟩ := (hevidence.attempted attempts name).mp hname
    rw [← houtcomes] at houtcome
    obtain ⟨row, hrow, hpair⟩ := List.mem_map.mp houtcome
    obtain ⟨rfl, -⟩ := Prod.mk.inj hpair
    exact ⟨row, hrow, hids row hrow, rfl⟩
  | degraded _ human =>
    rw [human] at verdict
    rcases verdict with hv | hv <;> cases hv

theorem required_skills_recorded_failed_skill :
    ∃ result w', exec (agentRun (sampleRuntime .free []) {} failedSkillEnv failedSkillContext)
        failedSkillWorld = (.ok result, w') ∧
      result.conclusion.verdict = .attackConfirmed ∧
      ∃ fields required rows,
        templateFields (closureTemplate failedSkillContext) = .ok fields ∧
        templateList fields "required_skills_before_conclude" = .ok required ∧
        w'.db.toolCalls = failedSkillWorld.db.toolCalls ++ rows ∧
        ∀ s ∈ required, ∃ row ∈ rows, row.investigationId = 0 ∧ s = .str row.skillName := by
  have hverdict : ((returned (agentRun (sampleRuntime .free []) {} failedSkillEnv failedSkillContext)
      failedSkillWorld).map (·.conclusion.verdict)) = some .attackConfirmed := by decide +kernel
  obtain ⟨result, hresult, hv⟩ := Option.map_eq_some_iff.mp hverdict
  have hrun := exec_of_returned hresult
  exact ⟨result, _, hrun, hv, required_skills_recorded (sampleRuntime .free []) {} failedSkillEnv
    failedSkillContext failedSkillWorld _ result rfl hrun (.inl hv)⟩

/-- The required skill has only failed when the attack is confirmed. -/
theorem required_skill_failed :
    ∃ result w', exec (agentRun (sampleRuntime .free []) {} failedSkillEnv failedSkillContext)
        failedSkillWorld = (.ok result, w') ∧
      result.conclusion.verdict = .attackConfirmed ∧
      (∃ fields, templateFields (closureTemplate failedSkillContext) = .ok fields ∧
        templateList fields "required_skills_before_conclude" = .ok [.str "query_asset"]) ∧
      ¬ ∃ row ∈ w'.db.toolCalls, row.skillName = "query_asset" ∧ row.success = true := by
  have hverdict : ((returned (agentRun (sampleRuntime .free []) {} failedSkillEnv failedSkillContext)
      failedSkillWorld).map (·.conclusion.verdict)) = some .attackConfirmed := by decide +kernel
  obtain ⟨result, hresult, hv⟩ := Option.map_eq_some_iff.mp hverdict
  refine ⟨result, _, exec_of_returned hresult, hv, ⟨_, rfl, rfl⟩, ?_⟩
  decide +kernel

end Minsight

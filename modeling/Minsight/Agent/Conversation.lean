import Minsight.Agent.Steps

/-! # The conversation with the model

At every call of the model each earlier message with tool calls has got its replies, and the
stored messages are the conversation in its order.
-/

namespace Minsight

open Tx Session

def Answers (replies : List ChatMessage) (calls : List ToolCallRequest) : Prop :=
  replies.map (fun r => (r.role, r.toolCallId)) =
    calls.map fun c => (MessageRole.tool, some c.id)

/--
Every assistant message with tool calls is followed, before any other message, by exactly
one tool message for each of them.
-/
def CallsAnswered (messages : List ChatMessage) : Prop :=
  ∀ before m after, messages = before ++ m :: after → m.role = .assistant → m.toolCalls ≠ [] →
    ∃ replies rest, after = replies ++ rest ∧ Answers replies m.toolCalls ∧
      ∀ r ∈ rest.head?, r.role ≠ .tool

/-- A conversation in which the calls `pending` of the last answer still wait for a reply. -/
inductive Conversation : List ChatMessage → List ToolCallRequest → Prop
  | nil : Conversation [] []
  | said {l : List ChatMessage} {m : ChatMessage} :
      Conversation l [] → m.role ≠ .tool → Conversation (l ++ [m]) m.toolCalls
  | replied {l : List ChatMessage} {m : ChatMessage} {call : ToolCallRequest}
      {rest : List ToolCallRequest} :
      Conversation l (call :: rest) → m.role = .tool → m.toolCallId = some call.id →
      m.toolCalls = [] → Conversation (l ++ [m]) rest

theorem append_singleton_eq {α : Type} {l before after : List α} {x m : α}
    (h : l ++ [x] = before ++ m :: after) :
    after = [] ∧ x = m ∨ ∃ after', after = after' ++ [x] ∧ l = before ++ m :: after' := by
  rcases List.eq_nil_or_concat' after with rfl | ⟨after', y, rfl⟩
  · exact .inl ⟨rfl, (List.append_inj' h rfl).2 |> List.singleton_inj.mp⟩
  · rw [← List.cons_append, ← List.append_assoc] at h
    obtain ⟨hl, hx⟩ := List.append_inj' h rfl
    obtain rfl := List.singleton_inj.mp hx
    exact .inr ⟨after', rfl, hl⟩

theorem Conversation.answers {l : List ChatMessage} {pending : List ToolCallRequest}
    (h : Conversation l pending) {before after : List ChatMessage} {m : ChatMessage}
    (hl : l = before ++ m :: after) (hm : m.toolCalls ≠ []) :
    (∃ answered, m.toolCalls = answered ++ pending ∧ Answers after answered) ∨
      ∃ replies r rest, after = replies ++ r :: rest ∧ Answers replies m.toolCalls ∧
        r.role ≠ .tool := by
  induction h generalizing after with
  | nil => simp at hl
  | @said l x h hx ih =>
    rcases append_singleton_eq hl with ⟨rfl, rfl⟩ | ⟨after', rfl, hl'⟩
    · exact .inl ⟨[], rfl, rfl⟩
    · rcases ih hl' with ⟨answered, hcalls, hans⟩ | ⟨replies, r, rest, rfl, hans, hr⟩
      · rw [List.append_nil] at hcalls
        exact .inr ⟨after', x, [], rfl, hcalls ▸ hans, hx⟩
      · exact .inr ⟨replies, r, rest ++ [x], by simp, hans, hr⟩
  | @replied l x call rest h hrole hid hcalls ih =>
    rcases append_singleton_eq hl with ⟨rfl, rfl⟩ | ⟨after', rfl, hl'⟩
    · exact absurd hcalls hm
    · rcases ih hl' with ⟨answered, hmcalls, hans⟩ | ⟨replies, r, rest', rfl, hans, hr⟩
      · refine .inl ⟨answered ++ [call], by simp [hmcalls], ?_⟩
        unfold Answers at hans ⊢
        rw [List.map_append, List.map_append, hans, List.map_singleton, List.map_singleton, hrole, hid]
      · exact .inr ⟨replies, r, rest' ++ [x], by simp, hans, hr⟩

theorem Conversation.callsAnswered {l : List ChatMessage} (h : Conversation l []) :
    CallsAnswered l := by
  intro before m after hl _ hm
  rcases h.answers hl hm with ⟨answered, hcalls, hans⟩ | ⟨replies, r, rest, rfl, hans, hr⟩
  · rw [List.append_nil] at hcalls
    exact ⟨after, [], by simp, hcalls ▸ hans, by simp⟩
  · refine ⟨replies, r :: rest, rfl, hans, fun r' hr' => ?_⟩
    obtain rfl : r = r' := by simpa using hr'
    exact hr

section

variable {rt : Runtime} {config : InvestigationConfig} {env : AgentEnv}
  {ctx : InvestigationContext} {start : LoopRecord} {p q : LoopPoint}

theorem conversation_step (h : Conversation p.state.messages p.pending)
    (hstep : LoopStep config env ctx p q) : Conversation q.state.messages q.pending := by
  cases hstep with
  | chatted _ _ _ => exact h
  | @reminded content pending =>
    rw [pending] at h
    have hsaid : Conversation (p.state.messages ++
        [{ role := .assistant, content := some content }]) [] := .said h nofun
    have hreminder : Conversation ((p.state.messages ++
        [{ role := .assistant, content := some content }]) ++ [reminderMessage]) [] :=
      .said hsaid nofun
    change Conversation _ p.pending
    rw [pending]
    exact hreminder
  | @asked response pending _ _ _ _ =>
    rw [pending] at h
    exact .said (m := assistantMessage response) h nofun
  | counted _ _ _ => exact h
  | attempted _ _ _ _ => exact h
  | rejected _ _ => exact h
  | resumed _ _ _ => exact h
  | answered pending _ =>
    rw [pending] at h
    exact .replied h rfl rfl rfl

/-- The calls of the model since the loop started were made with a settled conversation. -/
def ChatsSettled (start : LoopRecord) (p : LoopPoint) : Prop :=
  ∃ log, p.record.log = start.log ++ log ∧ ∀ n messages, .chat n messages ∈ log →
    Conversation messages [] ∧ messages <+: p.state.messages

/-- Conversations only grow, and other entries of the log tell nothing about them. -/
theorem ChatsSettled.mono (h : ChatsSettled start p) {entries : List AgentEvent}
    (hlog : q.record.log = p.record.log ++ entries)
    (hentries : ∀ n messages, .chat n messages ∈ entries →
      Conversation messages [] ∧ messages <+: q.state.messages)
    (hmessages : p.state.messages <+: q.state.messages) : ChatsSettled start q := by
  obtain ⟨log, hp, hchats⟩ := h
  refine ⟨log ++ entries, by rw [hlog, hp, List.append_assoc], fun n messages hmem => ?_⟩
  rcases List.mem_append.mp hmem with hold | hnew
  · obtain ⟨hconv, hprefix⟩ := hchats n messages hold
    exact ⟨hconv, hprefix.trans hmessages⟩
  · exact hentries n messages hnew

theorem chatsSettled_step (hconv : Conversation p.state.messages p.pending)
    (h : ChatsSettled start p) (hstep : LoopStep config env ctx p q) : ChatsSettled start q := by
  have silent {e : AgentEvent} (he : ∀ n messages, e ≠ .chat n messages) (n : ℕ)
      (messages : List ChatMessage) (hmem : .chat n messages ∈ [e]) :
      Conversation messages [] ∧ messages <+: q.state.messages :=
    absurd (List.mem_singleton.mp hmem).symm (he n messages)
  cases hstep with
  | chatted steps pending attempts =>
    have hlog : p.chat.record.log = p.record.log ++ [.chat (p.step + 1) p.state.messages] := rfl
    refine h.mono hlog ?_ (List.prefix_refl _)
    intro n messages hmem
    obtain ⟨-, rfl⟩ : n = p.step + 1 ∧ messages = p.state.messages := by simpa using hmem
    rw [pending] at hconv
    exact ⟨hconv, List.prefix_refl _⟩
  | reminded pending =>
    exact h.mono (List.append_nil _).symm nofun
      ((List.prefix_append _ _).trans (List.prefix_append _ _))
  | asked _ _ _ _ _ => exact h.mono (List.append_nil _).symm nofun (List.prefix_append _ _)
  | counted _ _ _ => exact h.mono (List.append_nil _).symm nofun (List.prefix_refl _)
  | attempted _ _ _ _ => exact h.mono rfl (silent nofun) (List.prefix_refl _)
  | rejected _ _ => exact h.mono (List.append_nil _).symm nofun (List.prefix_refl _)
  | resumed _ _ _ => exact h.mono rfl (silent nofun) (List.prefix_refl _)
  | answered _ _ => exact h.mono (List.append_nil _).symm nofun (List.prefix_append _ _)

/-- The row that stores a message of the conversation. -/
structure StoredAs (env : AgentEnv) (ctx : InvestigationContext) (m : ChatMessage)
    (row : InvestigationMessage) : Prop where
  investigation : row.investigationId = ctx.investigationId
  role : row.role = m.role
  call : row.toolCallId = m.toolCallId
  /-- An answer with calls is stored whole; the reminder is stored in a short form. -/
  content : m.toolCalls ≠ [] ∧ row.content = env.dumpMessage m ∨
    m.toolCalls = [] ∧ some row.content = m.content ∨
    m = reminderMessage ∧ row.content = "Reminder: call submit_conclusion when ready."

/-- The messages stored since the loop started are the conversation, numbered in order. -/
def Stored (env : AgentEnv) (ctx : InvestigationContext) (start : LoopRecord) (p : LoopPoint) :
    Prop :=
  ∃ rows, p.record.messages = start.messages ++ rows ∧
    List.Forall₂ (StoredAs env ctx) p.state.messages rows ∧
    rows.map (·.sequence) = List.range p.state.sequence

theorem Stored.append (h : Stored env ctx start p) {m : ChatMessage} {content : String}
    (hcontent : m.toolCalls ≠ [] ∧ content = env.dumpMessage m ∨
      m.toolCalls = [] ∧ some content = m.content ∨
      m = reminderMessage ∧ content = "Reminder: call submit_conclusion when ready.") :
    Stored env ctx start (p.append ctx.investigationId m content) := by
  obtain ⟨rows, hrows, hstored, hsequence⟩ := h
  refine ⟨rows ++ [{
    investigationId := ctx.investigationId
    role := m.role
    content
    toolCallId := m.toolCallId
    sequence := p.state.sequence }], ?_, ?_, ?_⟩
  · simp [LoopPoint.append, hrows]
  · exact List.rel_append hstored (.cons ⟨rfl, rfl, rfl, hcontent⟩ .nil)
  · rw [List.map_append, hsequence]
    exact List.range_succ.symm

theorem stored_step (h : Stored env ctx start p) (hstep : LoopStep config env ctx p q) :
    Stored env ctx start q := by
  cases hstep with
  | chatted _ _ _ => exact h
  | reminded _ =>
    exact (h.append (.inr (.inl ⟨rfl, rfl⟩))).append (.inr (.inr ⟨rfl, rfl⟩))
  | asked _ _ _ _ calls => exact h.append (.inl ⟨calls, rfl⟩)
  | counted _ _ _ => exact h
  | attempted _ _ _ _ => exact h
  | rejected _ _ => exact h
  | resumed _ _ _ => exact h
  | answered _ _ => exact h.append (.inr (.inl ⟨rfl, rfl⟩))

structure ChatProtocol (env : AgentEnv) (ctx : InvestigationContext) (start : LoopRecord)
    (p : LoopPoint) : Prop where
  conversation : Conversation p.state.messages p.pending
  chats : ChatsSettled start p
  stored : Stored env ctx start p

theorem chatProtocol_opening : ChatProtocol env ctx start (openingPoint env ctx start) where
  conversation := by
    have hsystem : Conversation ([] ++ [{ role := .system, content := some (env.prompts ctx).1 }])
        [] := .said .nil nofun
    exact .said hsystem nofun
  chats := ⟨[], (List.append_nil _).symm, nofun⟩
  stored := by
    have hnone : Stored env ctx start { record := start } :=
      ⟨[], (List.append_nil _).symm, .nil, rfl⟩
    exact (hnone.append (.inr (.inl ⟨rfl, rfl⟩))).append (.inr (.inl ⟨rfl, rfl⟩))

theorem chatProtocol_reached (h : LoopReaches config env ctx start p) :
    ChatProtocol env ctx start p := by
  refine reached_of_step (fun p q hp hstep => ?_) h chatProtocol_opening
  exact ⟨conversation_step hp.conversation hstep, chatsSettled_step hp.conversation hp.chats hstep,
    stored_step hp.stored hstep⟩

end

/--
At every call of the model all earlier tool calls have their replies, and the rows the loop
adds are the messages of one conversation, which all these calls see the beginning of.
-/
theorem agent_chat_protocol (rt : Runtime) (config : InvestigationConfig) (env : AgentEnv)
    (ctx : InvestigationContext) (w : World) :
    ∃ log rows conversation,
      (exec (agentRun rt config env ctx) w).2.out.agentLog = w.out.agentLog ++ log ∧
      (exec (agentRun rt config env ctx) w).2.db.messages = w.db.messages ++ rows ∧
      (∀ n messages, .chat n messages ∈ log →
        CallsAnswered messages ∧ messages <+: conversation) ∧
      List.Forall₂ (StoredAs env ctx) conversation rows ∧
      rows.map (·.sequence) = List.range rows.length := by
  obtain ⟨p, hreach, hrecord, -⟩ := agentRun_reaches rt config env ctx w
  obtain ⟨-, ⟨log, hlog, hchats⟩, rows, hrows, hstored, hsequence⟩ := chatProtocol_reached hreach
  have hlength : rows.length = p.state.sequence := by
    rw [← List.length_map (f := (·.sequence)), hsequence, List.length_range]
  refine ⟨log, rows, p.state.messages, ?_, ?_, ?_, hstored, hlength ▸ hsequence⟩
  · exact (congrArg LoopRecord.log hrecord).trans hlog
  · exact (congrArg LoopRecord.messages hrecord).trans hrows
  · intro n messages hmem
    obtain ⟨hconv, hprefix⟩ := hchats n messages hmem
    exact ⟨hconv.callsAnswered, hprefix⟩

end Minsight

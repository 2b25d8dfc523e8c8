import Minsight.Agent.Effects
import Minsight.Eval.Runner

/-! # Regression runs with the real model

Such a run gives the messages of its cases to the session it commits, although their
investigations are not stored. It cannot return.
-/

namespace Minsight.Regression

open Tx

abbrev KeepsMessages : World → World → Prop :=
  OnDb fun db db' => db.messages ≠ [] → db'.messages ≠ []

theorem allowsAgent_messages {rt : Runtime} (investigationId eventId : ℕ) :
    AllowsAgent rt KeepsMessages investigationId eventId where
  clock := allowsClock_onDb
  investigation _ _ := fun _ => id
  message _ := fun _ _ => List.append_ne_nil_of_right_ne_nil _ (List.cons_ne_nil _ _)
  toolCall _ := fun _ => id
  correlate _ _ := fun _ => id
  observe _ := respects_setRedis _
  fail := failTransaction_respects fun _ => id

theorem caseLoop_messages (rt : Runtime) (env : CaseEnv) (context : RegressionContext)
    (startedAt : Time) (mocked : Bool) (model : CaseModel) :
    (caseLoop rt env context startedAt mocked model).2.db.messages ≠ [] := by
  have hallows : AllowsAgent rt KeepsMessages (caseContext context).investigationId
      (caseContext context).eventId := allowsAgent_messages 0 0
  unfold caseLoop agentRun
  dsimp only
  rw [saveMessage, Session.exec_modify_bind]
  refine Respects.bind (R := KeepsMessages) ?_ (fun _ => ?_) _ (List.cons_ne_nil _ _)
  · exact saveMessage_respects hallows _ _ _ _
  · exact agentSteps_respects hallows _

/-- A run with the real model raises, or its session holds messages that it cannot insert. -/
structure Runner.Fails (r : Runner) : Prop where
  ended : r.realLlm = true → ∀ outcome, r.position = .ended outcome → ∃ e, outcome = .error e
  messages : r.realLlm = true → r.position = .between → r.remaining = [] → r.messages ≠ []

variable {E : Environment} {tables : Tables} {p p' : Process} {i : ℕ} {r r' : Runner} {now : Time}
  {args : RunArgs} {tie : ℕ → ℕ} {env : CaseEnv} {outcome : Except Exn RegressionRunResult}

theorem fails_of_mock (h : r.realLlm = false) : r.Fails where
  ended hreal := absurd hreal (ne_true_of_eq_false h)
  messages hreal := absurd hreal (ne_true_of_eq_false h)

theorem fails_endRunner (e : Exn) : ({ r with position := .ended (.error e) } : Runner).Fails where
  ended _ outcome houtcome := by
    cases houtcome
    exact ⟨e, rfl⟩
  messages _ hposition := by cases hposition

theorem openRun_fails : (E.openRun args tie p).Fails := by
  unfold Environment.openRun
  dsimp only
  split
  · exact fails_of_mock rfl
  · split
    · exact fails_of_mock rfl
    · split
      · exact fails_of_mock rfl
      · split
        · exact fails_of_mock rfl
        · rename_i hcases
          constructor
          · intro _ outcome houtcome
            cases houtcome
          · intro _ _ hremaining
            exact absurd (List.isEmpty_iff.mpr hremaining) hcases

theorem note_fails {skill : String} (h : r.Fails) : (r.note skill).Fails := by
  unfold Runner.note
  split
  · constructor
    · intro _ outcome houtcome
      cases houtcome
    · intro _ hposition
      cases hposition
  · exact h

theorem forall_set {P : Runner → Prop} {l : List Runner} (h : ∀ r ∈ l, P r) (hr : P r') :
    ∀ r ∈ l.set i r', P r := by
  intro r hmem
  rcases List.mem_or_eq_of_mem_set hmem with hmem | rfl
  · exact h r hmem
  · exact hr

theorem enter_fails (h : ∀ r ∈ p.runners, r.Fails) (hstep : E.enter i now p = some p') :
    ∀ r ∈ p'.runners, r.Fails := by
  obtain ⟨r, hi, hstep⟩ := Option.bind_eq_some_iff.mp hstep
  split at hstep
  · split at hstep <;> obtain rfl := Option.some.inj hstep
    · exact forall_set h (fails_endRunner _)
    · apply forall_set h
      constructor
      · intro _ outcome houtcome
        cases houtcome
      · intro _ hposition
        cases hposition
  · cases hstep

theorem leave_fails (h : ∀ r ∈ p.runners, r.Fails) (hstep : E.leave i env p = some p') :
    ∀ r ∈ p'.runners, r.Fails := by
  obtain ⟨r, hi, hstep⟩ := Option.bind_eq_some_iff.mp hstep
  split at hstep
  · rename_i c hposition
    have hmessages := caseLoop_messages E.rt env c.context c.startedAt (p.executor != .original)
      c.model
    generalize caseLoop E.rt env c.context c.startedAt (p.executor != .original) c.model = loop
      at hstep hmessages
    dsimp only at hstep
    split at hstep
    · obtain rfl := Option.some.inj hstep
      exact forall_set h (fails_endRunner _)
    · split at hstep <;> obtain rfl := Option.some.inj hstep
      · exact forall_set h (fails_endRunner _)
      · apply forall_set h
        constructor
        · intro _ outcome houtcome
          cases houtcome
        · intro hreal _ _
          have hgiven : (r.given loop.2).realLlm = r.realLlm := by
            unfold Runner.given
            split <;> rfl
          have hr : r.realLlm = true := hgiven.symm.trans hreal
          change (r.given loop.2).messages ≠ []
          rw [Runner.given, if_pos hr]
          exact List.append_ne_nil_of_right_ne_nil _ hmessages
  · cases hstep

theorem flush_of_messages (h : r.messages ≠ []) :
    Environment.flush r = .error (.integrity "investigation_messages_investigation_id_fkey") := by
  unfold Environment.flush
  rw [if_pos]
  simp [h]

theorem finish_fails (h : ∀ r ∈ p.runners, r.Fails) (hstep : E.finish i now p = some p') :
    ∀ r ∈ p'.runners, r.Fails := by
  obtain ⟨r, hi, hstep⟩ := Option.bind_eq_some_iff.mp hstep
  split at hstep
  · rename_i hposition hremaining
    split at hstep
    · obtain rfl := Option.some.inj hstep
      exact forall_set h (fails_endRunner _)
    · rename_i hflush
      obtain rfl := Option.some.inj hstep
      refine forall_set h (fails_of_mock (Bool.eq_false_iff.mpr fun hreal => ?_))
      have hmessages := (h r (List.mem_of_getElem? hi)).messages hreal hposition hremaining
      rw [flush_of_messages hmessages] at hflush
      cases hflush
  · cases hstep

theorem answer_fails {k : ℕ} {request : LiveRequest} (h : ∀ r ∈ p.runners, r.Fails) :
    ∀ r ∈ (E.answer k request p).2.runners, r.Fails := by
  unfold Environment.answer
  split
  · split <;> exact h
  · split
    · exact h
    · intro r hr
      rcases Rows.mem_update hr with hold | ⟨s, hs, rfl⟩
      · exact h r hold
      · exact note_fails (h s hs)

theorem real_run_raises (hreach : (E.system tables).Reachable p) (hr : r ∈ p.runners)
    (hreal : r.realLlm = true) (hended : r.position = .ended outcome) :
    ∃ e, outcome = .error e := by
  have hinv : ∀ r ∈ p.runners, r.Fails := by
    refine hreach.invariant (I := fun p => ∀ r ∈ p.runners, r.Fails) ?_ ?_
    · intro r hr
      cases hr
    intro p l p' h _ hstep
    change E.step l p = some p' at hstep
    unfold Environment.step at hstep
    split at hstep
    · cases l with
      | service write =>
        obtain rfl := Option.some.inj hstep
        exact h
      | live k =>
        obtain ⟨request, -, rfl⟩ := Option.map_eq_some_iff.mp hstep
        exact answer_fails h
      | begin args tie =>
        obtain rfl := Option.some.inj hstep
        intro r hr
        rcases List.mem_append.mp hr with hr | hr
        · exact h r hr
        · obtain rfl := List.mem_singleton.mp hr
          exact openRun_fails
      | enter i now => exact enter_fails h hstep
      | leave i env => exact leave_fails h hstep
      | finish i now => exact finish_fails h hstep
      | lockExpires =>
        obtain rfl := Option.some.inj hstep
        exact h
    · cases hstep
  exact (hinv r hr).ended hreal outcome hended

end Minsight.Regression

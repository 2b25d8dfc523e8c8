import Minsight.Foundation.Tx

/-! # Loops that run one transaction per item

A loop runs a body for each item. A body that raises is rolled back to the state
the item started from, and the exception branch then reads the item again. When
the rollback has expired the item, that read raises as well and ends the loop.
-/

namespace Minsight

/-- One transaction per item, reported in `ρ`. -/
structure Loop (ε σ ι τ ρ : Type) where
  /-- The statements of the `try` block, the commit included. -/
  body : ι → Tx ε σ τ
  /-- The state after a rollback, from the last committed state and the present one. -/
  rollback : σ → σ → σ
  /-- What reading an attribute of an item raises after a rollback, if it raises. -/
  expired : Option ε
  onOk : ρ → ι → τ → ρ
  onError : ρ → ι → ε → ρ

namespace Loop

variable {ε σ ι τ ρ : Type} (L : Loop ε σ ι τ ρ)

def run : List ι → ρ → Tx ε σ ρ
  | [], r => pure r
  | i :: is, r => do
    let s ← Tx.read id
    match ← Tx.attempt (L.body i) with
    | .ok t => run is (L.onOk r i t)
    | .error e =>
      Tx.write (L.rollback s)
      match L.expired with
      | some e' => Tx.raise e'
      | none => run is (L.onError r i e)

variable {L} {i : ι} {is : List ι} {r : ρ} {s s' : σ} {t : τ} {e e' : ε}

@[simp] theorem run_nil : L.run [] r = pure r := rfl

theorem exec_run_ok (h : Tx.exec (L.body i) s = (.ok t, s')) :
    Tx.exec (L.run (i :: is) r) s = Tx.exec (L.run is (L.onOk r i t)) s' := by
  simp [run, h]

theorem exec_run_error (h : Tx.exec (L.body i) s = (.error e, s')) (he : L.expired = none) :
    Tx.exec (L.run (i :: is) r) s =
      Tx.exec (L.run is (L.onError r i e)) (L.rollback s s') := by
  simp [run, h, he]

theorem exec_run_expired (h : Tx.exec (L.body i) s = (.error e, s'))
    (he : L.expired = some e') :
    Tx.exec (L.run (i :: is) r) s = (.error e', L.rollback s s') := by
  simp [run, h, he]

/--
The loop rule. The invariant speaks of the items still to come, so a body may rely on
what the loop established about its item before it started.
-/
theorem run_rule (I : List ι → ρ → σ → Prop) (J : σ → Prop)
    (ok : ∀ i is r s t s', I (i :: is) r s → Tx.exec (L.body i) s = (.ok t, s') →
      I is (L.onOk r i t) s')
    (error : ∀ i is r s e s', I (i :: is) r s → Tx.exec (L.body i) s = (.error e, s') →
      I is (L.onError r i e) (L.rollback s s'))
    (done : ∀ is r s, I is r s → J s) (h : I is r s) : J (Tx.exec (L.run is r) s).2 := by
  induction is generalizing r s with
  | nil => exact done _ _ _ h
  | cons i is ih =>
    rcases hb : Tx.exec (L.body i) s with ⟨e | t, s'⟩
    · have hr := error _ _ _ _ _ _ h hb
      cases he : L.expired with
      | none =>
        rw [exec_run_error hb he]
        exact ih hr
      | some e' =>
        rw [exec_run_expired hb he]
        exact done _ _ _ hr
    · rw [exec_run_ok hb]
      exact ih (ok _ _ _ _ _ _ h hb)

theorem run_invariant (I : σ → Prop)
    (ok : ∀ i s t s', I s → Tx.exec (L.body i) s = (.ok t, s') → I s')
    (error : ∀ i s e s', I s → Tx.exec (L.body i) s = (.error e, s') → I (L.rollback s s'))
    (h : I s) : I (Tx.exec (L.run is r) s).2 :=
  L.run_rule (fun _ _ s => I s) I (fun _ _ _ _ _ _ => ok _ _ _ _)
    (fun _ _ _ _ _ _ => error _ _ _ _) (fun _ _ _ h => h) h

theorem respects_run {R : σ → σ → Prop} [Std.Refl R] [IsTrans σ R]
    (ok : ∀ i s t s', Tx.exec (L.body i) s = (.ok t, s') → R s s')
    (error : ∀ i s e s', Tx.exec (L.body i) s = (.error e, s') → R s (L.rollback s s')) :
    Tx.Respects R (L.run is r) := fun s =>
  L.run_invariant (R s) (fun _ _ _ _ h hb => IsTrans.trans _ _ _ h (ok _ _ _ _ hb))
    (fun _ _ _ _ h hb => IsTrans.trans _ _ _ h (error _ _ _ _ hb)) (Std.Refl.refl s)

/-- Whenever the loop comes to an item, `p` holds of the item and the state it is started in. -/
def starts (L : Loop ε σ ι τ ρ) (p : σ → ι → Bool) : List ι → σ → Bool
  | [], _ => true
  | i :: is, s => p s i &&
    match Tx.exec (L.body i) s with
    | (.ok _, s') => L.starts p is s'
    | (.error _, s') => L.expired.isSome || L.starts p is (L.rollback s s')

variable {p : σ → ι → Bool}

theorem run_rule_of_starts (I : List ι → σ → Prop) (J : σ → Prop)
    (ok : ∀ i is s t s', I (i :: is) s → p s i = true → Tx.exec (L.body i) s = (.ok t, s') →
      I is s')
    (error : ∀ i is s e s', I (i :: is) s → p s i = true → Tx.exec (L.body i) s = (.error e, s') →
      I is (L.rollback s s'))
    (done : ∀ is s, I is s → J s) (h : I is s) (hp : L.starts p is s = true) :
    J (Tx.exec (L.run is r) s).2 := by
  induction is generalizing r s with
  | nil => exact done _ _ h
  | cons i is ih =>
    rw [starts, Bool.and_eq_true] at hp
    obtain ⟨hi, hp⟩ := hp
    rcases hb : Tx.exec (L.body i) s with ⟨e | t, s'⟩
    · have hr := error _ _ _ _ _ h hi hb
      rw [hb] at hp
      cases he : L.expired with
      | none =>
        rw [exec_run_error hb he]
        rw [he] at hp
        exact ih hr hp
      | some e' =>
        rw [exec_run_expired hb he]
        exact done _ _ hr
    · rw [exec_run_ok hb]
      rw [hb] at hp
      exact ih (ok _ _ _ _ _ h hi hb) hp

/-- An item that was started, the state before it and the state it left. -/
structure Attempt (ε σ ι τ : Type) where
  item : ι
  before : σ
  outcome : Except ε τ
  after : σ

def attempts (L : Loop ε σ ι τ ρ) : List ι → σ → List (Attempt ε σ ι τ)
  | [], _ => []
  | i :: is, s =>
    match Tx.exec (L.body i) s with
    | (.ok t, s') => ⟨i, s, .ok t, s'⟩ :: L.attempts is s'
    | (.error e, s') => ⟨i, s, .error e, L.rollback s s'⟩ ::
      if L.expired.isSome then [] else L.attempts is (L.rollback s s')

theorem attempts_forall {P : Attempt ε σ ι τ → Prop}
    (ok : ∀ i s t s', Tx.exec (L.body i) s = (.ok t, s') → P ⟨i, s, .ok t, s'⟩)
    (error : ∀ i s e s', Tx.exec (L.body i) s = (.error e, s') →
      P ⟨i, s, .error e, L.rollback s s'⟩) : ∀ a ∈ L.attempts is s, P a := by
  induction is generalizing s with
  | nil => simp [attempts]
  | cons i is ih =>
    rcases hb : Tx.exec (L.body i) s with ⟨e | t, s'⟩ <;> simp only [attempts, hb]
    · refine List.forall_mem_cons.mpr ⟨error i s e s' hb, ?_⟩
      split
      · exact List.forall_mem_nil P
      · exact ih
    · exact List.forall_mem_cons.mpr ⟨ok i s t s' hb, ih⟩

/-- A count that each attempt advances by what it is worth ends at the worth of all of them. -/
theorem count_of_attempts {f : σ → ℕ} {p : Attempt ε σ ι τ → Bool}
    (h : ∀ a ∈ L.attempts is s, f a.after = f a.before + if p a then 1 else 0) :
    f (Tx.exec (L.run is r) s).2 = f s + (L.attempts is s).countP p := by
  induction is generalizing r s with
  | nil => rfl
  | cons i is ih =>
    rcases hb : Tx.exec (L.body i) s with ⟨e | t, s'⟩ <;> simp only [attempts, hb] at h ⊢
    · rw [List.forall_mem_cons] at h
      obtain ⟨hi, h⟩ := h
      cases he : L.expired with
      | none =>
        rw [he] at h
        rw [exec_run_error hb he, ih h, hi, List.countP_cons]
        simp only [Option.isSome_none, Bool.false_eq_true, if_false]
        omega
      | some e' =>
        rw [exec_run_expired hb he, hi]
        simp [List.countP_cons]
    · rw [List.forall_mem_cons] at h
      obtain ⟨hi, h⟩ := h
      rw [exec_run_ok hb, ih h, List.countP_cons]
      dsimp only at hi
      omega

variable (L)

/-- The items whose bodies raise when each failure is rolled back and the loop goes on. -/
def failures : List ι → σ → List (ι × ε)
  | [], _ => []
  | i :: is, s =>
    match Tx.exec (L.body i) s with
    | (.ok _, s') => failures is s'
    | (.error e, s') => (i, e) :: failures is (L.rollback s s')

/-- The items whose bodies return when each failure is rolled back and the loop goes on. -/
def survivors : List ι → σ → List ι
  | [], _ => []
  | i :: is, s =>
    match Tx.exec (L.body i) s with
    | (.ok _, s') => i :: survivors is s'
    | (.error _, s') => survivors is (L.rollback s s')

/--
The loop returns, it reports each failing item, and in the part of the state that `view`
shows it ends where a loop over the other items alone ends.
-/
def Isolates {υ : Type} (view : σ → υ) (reports : ρ → ι → ε → Prop) (is : List ι) (r : ρ)
    (s : σ) : Prop :=
  ∃ r' s', Tx.exec (L.run is r) s = (.ok r', s') ∧
    (∀ f ∈ L.failures is s, reports r' f.1 f.2) ∧
    ∃ r'' s'', Tx.exec (L.run (L.survivors is s) r) s = (.ok r'', s'') ∧ view s' = view s''

variable {L}

theorem survivors_of_failures (h : L.failures is s = []) : L.survivors is s = is := by
  induction is generalizing s with
  | nil => rfl
  | cons i is ih =>
    rcases hb : Tx.exec (L.body i) s with ⟨e | t, s'⟩ <;> simp only [failures, hb] at h
    · cases h
    · simp only [survivors, hb, ih h]

theorem run_of_failures (h : L.failures is s = []) :
    ∃ r' s', Tx.exec (L.run is r) s = (.ok r', s') := by
  induction is generalizing r s with
  | nil => exact ⟨r, s, rfl⟩
  | cons i is ih =>
    rcases hb : Tx.exec (L.body i) s with ⟨e | t, s'⟩ <;> simp only [failures, hb] at h
    · cases h
    · rw [exec_run_ok hb]
      exact ih h

theorem run_error_of_failures (he : L.expired = some e') (h : L.failures is s ≠ []) :
    ∃ s', Tx.exec (L.run is r) s = (.error e', s') := by
  induction is generalizing r s with
  | nil => exact absurd rfl h
  | cons i is ih =>
    rcases hb : Tx.exec (L.body i) s with ⟨e | t, s'⟩ <;> simp only [failures, hb] at h
    · exact ⟨_, exec_run_expired hb he⟩
    · rw [exec_run_ok hb]
      exact ih h

theorem isolates_iff {υ : Type} {view : σ → υ} {reports : ρ → ι → ε → Prop}
    (he : L.expired = some e') : L.Isolates view reports is r s ↔ L.failures is s = [] := by
  constructor
  · rintro ⟨r', s', hrun, -⟩
    by_contra hf
    obtain ⟨s'', herr⟩ := run_error_of_failures (r := r) he hf
    rw [hrun] at herr
    cases herr
  · intro hf
    obtain ⟨r', s', hrun⟩ := run_of_failures (r := r) hf
    refine ⟨r', s', hrun, by simp [hf], r', s', ?_, rfl⟩
    rw [survivors_of_failures hf, hrun]

end Loop

end Minsight

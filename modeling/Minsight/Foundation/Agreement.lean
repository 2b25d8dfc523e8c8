import Minsight.Foundation.Tx

/-! # Programs that cannot tell two states apart

A program agrees on a relation when it returns the same from related states and leaves related
states. Such a program depends on no part of the state that the relation leaves open.
-/

namespace Minsight

namespace Tx

variable {ε σ α β : Type} {R : σ → σ → Prop} {m : Tx ε σ α} {f : α → Tx ε σ β}

/-- From related states `m` returns the same, and it leaves related states. -/
def Agrees (R : σ → σ → Prop) (m : Tx ε σ α) : Prop :=
  ∀ s s', R s s' → (exec m s).1 = (exec m s').1 ∧ R (exec m s).2 (exec m s').2

theorem agrees_pure (a : α) : Agrees R (pure a : Tx ε σ α) := fun _ _ h => ⟨rfl, h⟩

theorem agrees_raise (e : ε) : Agrees R (raise e : Tx ε σ α) := fun _ _ h => ⟨rfl, h⟩

theorem agrees_fallible (o : Option ε) : Agrees R (fallible o : Tx ε σ Unit) := by
  cases o with
  | none => exact agrees_pure ()
  | some e => exact agrees_raise e

theorem Agrees.bind (hm : Agrees R m) (hf : ∀ a, Agrees R (f a)) : Agrees R (m >>= f) := by
  intro s s' hs
  obtain ⟨heq, hrel⟩ := hm s s' hs
  rw [exec_bind, exec_bind]
  cases h : exec m s with
  | mk r s₁ =>
    cases h' : exec m s' with
    | mk r' s₁' =>
      rw [h, h'] at heq hrel
      obtain rfl : r = r' := heq
      cases r with
      | error e => exact ⟨rfl, hrel⟩
      | ok a => exact hf a s₁ s₁' hrel

theorem Agrees.attempt (hm : Agrees R m) : Agrees R (attempt m) := by
  intro s s' hs
  obtain ⟨heq, hrel⟩ := hm s s' hs
  exact ⟨by rw [exec_attempt, exec_attempt, heq], hrel⟩

/-- Where `m` raises, it leaves a state that satisfies `p`. -/
def Marks (p : σ → Prop) (m : Tx ε σ α) : Prop := ∀ s e s', exec m s = (.error e, s') → p s'

variable {p : σ → Prop}

theorem marks_pure (a : α) : Marks p (pure a : Tx ε σ α) := by
  intro s e s' h
  rw [exec_pure] at h
  cases h

theorem marks_write (g : σ → σ) : Marks p (write g : Tx ε σ Unit) := by
  intro s e s' h
  rw [exec_write] at h
  cases h

theorem Marks.bind (hm : Marks p m) (hf : ∀ a, Marks p (f a)) : Marks p (m >>= f) := by
  intro s e s' h
  rw [exec_bind] at h
  rcases hr : exec m s with ⟨e' | a, s₁⟩ <;> rw [hr] at h
  · obtain ⟨-, rfl⟩ := Prod.mk.inj h
    exact hm _ _ _ hr
  · exact hf a _ _ _ h

end Tx

end Minsight

import Mathlib.Algebra.Order.Group.Nat
import Mathlib.Data.List.Nodup
import Minsight.Foundation.Batch
import Minsight.Foundation.System

/-! # Queues that loops work off

A loop serves a queue when an item that returns leaves the queue, and an item that raises leaves
the queue as it is. How far the runs of a system shorten a queue is the sum of what its steps are
good for.
-/

namespace Minsight

namespace Loop

variable {ε σ ι τ ρ κ : Type} [DecidableEq κ] {L : Loop ε σ ι τ ρ} {queue : σ → List κ}
  {key : ι → κ} {is : List ι} {r r' : ρ} {s s' : σ}

/-- Each item of the loop that returns takes its key from the queue. -/
structure Serves (L : Loop ε σ ι τ ρ) (queue : σ → List κ) (key : ι → κ) : Prop where
  ok : ∀ i s t s', Tx.exec (L.body i) s = (.ok t, s') → queue s' = (queue s).erase (key i)
  error : ∀ i s e s', Tx.exec (L.body i) s = (.error e, s') → queue (L.rollback s s') = queue s

theorem Serves.length_run (h : L.Serves queue key) (hnodup : (queue s).Nodup)
    (hkeys : (is.map key).Nodup) (hmem : ∀ i ∈ is, key i ∈ queue s) (hf : L.failures is s = []) :
    (queue (Tx.exec (L.run is r) s).2).length + is.length = (queue s).length := by
  induction is generalizing r s with
  | nil => rfl
  | cons i is ih =>
    rcases hb : Tx.exec (L.body i) s with ⟨e | t, s'⟩ <;> simp only [failures, hb] at hf
    · cases hf
    · rw [List.map_cons, List.nodup_cons] at hkeys
      have hqueue := h.ok i s t s' hb
      have hi := hmem i List.mem_cons_self
      have hrest : ∀ j ∈ is, key j ∈ queue s' := by
        intro j hj
        have hne : key j ≠ key i := by
          intro he
          exact hkeys.1 (he ▸ List.mem_map_of_mem hj)
        rw [hqueue, List.mem_erase_of_ne hne]
        exact hmem j (List.mem_cons_of_mem _ hj)
      have hlength := ih (r := L.onOk r i t) (hqueue ▸ hnodup.erase _) hkeys.2 hrest hf
      have herased : (queue s').length + 1 = (queue s).length := by
        rw [hqueue]
        exact List.length_erase_add_one hi
      rw [exec_run_ok hb, List.length_cons]
      omega

section

variable (errors : ρ → ℕ) (hok : ∀ r i t, errors (L.onOk r i t) = errors r)
  (herror : ∀ r i e, errors r < errors (L.onError r i e))

include hok herror

theorem errors_le (h : Tx.exec (L.run is r) s = (.ok r', s')) : errors r ≤ errors r' := by
  induction is generalizing r s with
  | nil =>
    obtain ⟨hr, -⟩ := Prod.mk.inj h
    exact (congrArg errors (Except.ok.inj hr)).le
  | cons i is ih =>
    rcases hb : Tx.exec (L.body i) s with ⟨e | t, s₁⟩
    · cases he : L.expired with
      | some e' =>
        rw [exec_run_expired hb he] at h
        cases (Prod.mk.inj h).1
      | none =>
        rw [exec_run_error hb he] at h
        exact (herror r i e).le.trans (ih h)
    · rw [exec_run_ok hb] at h
      exact (hok r i t).symm.le.trans (ih h)

theorem failures_of_errors (h : Tx.exec (L.run is r) s = (.ok r', s'))
    (hr : errors r' = errors r) : L.failures is s = [] := by
  induction is generalizing r s with
  | nil => rfl
  | cons i is ih =>
    rcases hb : Tx.exec (L.body i) s with ⟨e | t, s₁⟩
    · cases he : L.expired with
      | some e' =>
        rw [exec_run_expired hb he] at h
        cases (Prod.mk.inj h).1
      | none =>
        rw [exec_run_error hb he] at h
        have hle := errors_le errors hok herror h
        have hlt := herror r i e
        omega
    · rw [exec_run_ok hb] at h
      simp only [failures, hb]
      exact ih h (hr.trans (hok r i t).symm)

end

end Loop

namespace System

variable {σ ℓ : Type} {S : System σ ℓ} {C : σ → ℓ → Prop} {ls : List ℓ} {s s' : σ}

/-- What the steps of a run are worth together. -/
def worth (S : System σ ℓ) (value : ℓ → σ → ℕ) : List ℓ → σ → ℕ
  | [], _ => 0
  | l :: ls, s => value l s + match S.step l s with
    | some s' => S.worth value ls s'
    | none => 0

/-- A measure that each step lowers by its value is lowered by the worth of the run. -/
theorem le_sub_worth (measure : σ → ℕ) (value : ℓ → σ → ℕ) (I : σ → Prop)
    (step : ∀ l s s', I s → C s l → S.step l s = some s' →
      I s' ∧ measure s' ≤ measure s - value l s)
    (hs : I s) (hls : S.RunsBy C ls s) (hrun : S.run ls s = some s') :
    I s' ∧ measure s' ≤ measure s - S.worth value ls s := by
  induction ls generalizing s with
  | nil =>
    obtain rfl : s = s' := Option.some.inj hrun
    exact ⟨hs, Nat.le_refl _⟩
  | cons l ls ih =>
    obtain ⟨s₁, h₁, h₂⟩ := Option.bind_eq_some_iff.mp hrun
    obtain ⟨hI, hone⟩ := step l s s₁ hs hls.1 h₁
    obtain ⟨hI', hrest⟩ := ih hI (hls.2 s₁ h₁) h₂
    have hworth : S.worth value (l :: ls) s = value l s + S.worth value ls s₁ := by
      rw [worth, h₁]
    exact ⟨hI', by omega⟩

end System

end Minsight

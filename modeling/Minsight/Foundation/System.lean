import Mathlib.Logic.Basic

/-! # Labelled transition systems

Runs from an initial state, the states they reach, and the invariants that every step
keeps. A run can be restricted to steps that satisfy a condition on the state they start
from.
-/

namespace Minsight

/-- A system whose steps are named by labels. A label that is not enabled has no step. -/
structure System (σ ℓ : Type) where
  init : σ
  step : ℓ → σ → Option σ

namespace System

variable {σ ℓ : Type} (S : System σ ℓ) {C D : σ → ℓ → Prop} {s s' : σ} {l : ℓ} {ls : List ℓ}

/-- The states reached by steps that all satisfy `C`. -/
inductive ReachableBy (C : σ → ℓ → Prop) : σ → Prop
  | init : ReachableBy C S.init
  | step {s s' : σ} {l : ℓ} : ReachableBy C s → C s l → S.step l s = some s' → ReachableBy C s'

/-- The states reached by any steps. -/
abbrev Reachable : σ → Prop := S.ReachableBy fun _ _ => True

/-- The state after the steps of a run. -/
def run : List ℓ → σ → Option σ
  | [], s => some s
  | l :: ls, s => (S.step l s).bind (run ls)

/-- Every step of the run satisfies `C` where it is taken. -/
def RunsBy (C : σ → ℓ → Prop) : List ℓ → σ → Prop
  | [], _ => True
  | l :: ls, s => C s l ∧ ∀ s', S.step l s = some s' → RunsBy C ls s'

variable {S}

theorem ReachableBy.mono (h : ∀ s l, C s l → D s l) (hs : S.ReachableBy C s) :
    S.ReachableBy D s := by
  induction hs with
  | init => exact .init
  | step _ hc hstep ih => exact .step ih (h _ _ hc) hstep

theorem ReachableBy.reachable (hs : S.ReachableBy C s) : S.Reachable s :=
  hs.mono fun _ _ _ => trivial

theorem ReachableBy.invariant {I : σ → Prop} (init : I S.init)
    (step : ∀ s l s', I s → C s l → S.step l s = some s' → I s') (hs : S.ReachableBy C s) :
    I s := by
  induction hs with
  | init => exact init
  | step _ hc hstep ih => exact step _ _ _ ih hc hstep

theorem ReachableBy.run (hs : S.ReachableBy C s) (hls : S.RunsBy C ls s)
    (h : S.run ls s = some s') : S.ReachableBy C s' := by
  induction ls generalizing s with
  | nil =>
    obtain rfl : s = s' := Option.some.inj h
    exact hs
  | cons l ls ih =>
    obtain ⟨s₁, h₁, h₂⟩ := Option.bind_eq_some_iff.mp h
    exact ih (hs.step hls.1 h₁) (hls.2 s₁ h₁) h₂

theorem reachableBy_of_run (hls : S.RunsBy C ls S.init) (h : S.run ls S.init = some s) :
    S.ReachableBy C s :=
  ReachableBy.run .init hls h

theorem runsBy_true : S.RunsBy (fun _ _ => True) ls s := by
  induction ls generalizing s with
  | nil => trivial
  | cons l ls ih => exact ⟨trivial, fun s' _ => ih⟩

theorem reachable_of_run (h : S.run ls S.init = some s) : S.Reachable s :=
  reachableBy_of_run runsBy_true h

theorem runsBy_of_labels {P : ℓ → Prop} (h : ∀ l ∈ ls, P l) :
    S.RunsBy (fun _ l => P l) ls s := by
  induction ls generalizing s with
  | nil => trivial
  | cons l ls ih =>
    exact ⟨h l List.mem_cons_self, fun s' _ => ih fun l' hl => h l' (List.mem_cons_of_mem _ hl)⟩

theorem RunsBy.and (h : S.RunsBy C ls s) (h' : S.RunsBy D ls s) :
    S.RunsBy (fun s l => C s l ∧ D s l) ls s := by
  induction ls generalizing s with
  | nil => trivial
  | cons l ls ih => exact ⟨⟨h.1, h'.1⟩, fun s' hs' => ih (h.2 s' hs') (h'.2 s' hs')⟩

/--
A run with some of its steps left out: each of these keeps a relation to the states of the
shorter run, and every other step is matched by itself.
-/
theorem run_filter {R : σ → σ → Prop} {p : ℓ → Bool} {s₀ : σ}
    (hidden : ∀ {s s₀ l s'}, R s s₀ → C s l → p l = false → S.step l s = some s' → R s' s₀)
    (kept : ∀ {s s₀ l s'}, R s s₀ → C s l → p l = true → S.step l s = some s' →
      ∃ s₀', S.step l s₀ = some s₀' ∧ R s' s₀')
    (h : R s s₀) (hls : S.RunsBy C ls s) (hrun : S.run ls s = some s') :
    ∃ s₀', S.run (ls.filter p) s₀ = some s₀' ∧ R s' s₀' := by
  induction ls generalizing s s₀ with
  | nil =>
    obtain rfl : s = s' := Option.some.inj hrun
    exact ⟨s₀, rfl, h⟩
  | cons l ls ih =>
    obtain ⟨s₁, hstep, hrest⟩ := Option.bind_eq_some_iff.mp hrun
    cases hp : p l with
    | false =>
      rw [List.filter_cons_of_neg (ne_true_of_eq_false hp)]
      exact ih (hidden h hls.1 hp hstep) (hls.2 s₁ hstep) hrest
    | true =>
      rw [List.filter_cons_of_pos hp]
      obtain ⟨s₂, hstep₀, h₁⟩ := kept h hls.1 hp hstep
      obtain ⟨s₀', hrun₀, h'⟩ := ih h₁ (hls.2 s₁ hstep) hrest
      exact ⟨s₀', Option.bind_eq_some_iff.mpr ⟨s₂, hstep₀, hrun₀⟩, h'⟩

variable (S)

/-- The state after a run that stops where a step does not satisfy the condition. -/
def runIf (p : σ → ℓ → Bool) : List ℓ → σ → Option σ
  | [], s => some s
  | l :: ls, s => if p s l then (S.step l s).bind (runIf p ls) else none

variable {S}

theorem run_of_runIf {p : σ → ℓ → Bool} (h : S.runIf p ls s = some s') :
    S.RunsBy (fun s l => p s l = true) ls s ∧ S.run ls s = some s' := by
  induction ls generalizing s with
  | nil => exact ⟨trivial, h⟩
  | cons l ls ih =>
    rw [System.runIf] at h
    split at h
    · rename_i hl
      obtain ⟨s₁, h₁, h₂⟩ := Option.bind_eq_some_iff.mp h
      obtain ⟨hls, hrun⟩ := ih h₂
      refine ⟨⟨hl, fun s' hs' => ?_⟩, Option.bind_eq_some_iff.mpr ⟨s₁, h₁, hrun⟩⟩
      rw [← Option.some.inj (h₁.symm.trans hs')]
      exact hls
    · cases h

theorem ReachableBy.runIf {p : σ → ℓ → Bool} (hs : S.ReachableBy (fun s l => p s l = true) s)
    (h : S.runIf p ls s = some s') : S.ReachableBy (fun s l => p s l = true) s' :=
  hs.run (run_of_runIf h).1 (run_of_runIf h).2

theorem run_getD (h : (S.run ls s).isSome = true) : S.run ls s = some ((S.run ls s).getD s') :=
  (Option.getD_of_ne_none (Option.isSome_iff_ne_none.mp h) s').symm

theorem runIf_getD {p : σ → ℓ → Bool} (h : (S.runIf p ls s).isSome = true) :
    S.runIf p ls s = some ((S.runIf p ls s).getD s') :=
  (Option.getD_of_ne_none (Option.isSome_iff_ne_none.mp h) s').symm

end System

end Minsight

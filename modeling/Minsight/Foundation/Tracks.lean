import Mathlib.Logic.Relation
import Minsight.Foundation.Tx

/-! # Programs that run along an abstract machine

A program tracks a machine when its run from a state that shows a point of the machine
ends in a state that shows a point reached by steps of the machine. What every step of the
machine keeps then holds wherever the program stops, also when it raises.
-/

namespace Minsight

namespace Tx

open Relation

variable {ε σ α β π : Type}

/--
Run from a state that shows `p`, the program stops in a state that shows a point reached
from `p`, and what it returns satisfies `Q` there.
-/
def Tracks (step : π → π → Prop) (shows : π → σ → Prop) (Q : α → π → Prop) (p : π)
    (m : Tx ε σ α) : Prop :=
  ∀ s, shows p s → ∃ q, ReflTransGen step p q ∧ shows q (exec m s).2 ∧
    ∀ a, (exec m s).1 = .ok a → Q a q

variable {step : π → π → Prop} {shows : π → σ → Prop} {Q : α → π → Prop} {R : β → π → Prop}
  {p q : π} {m : Tx ε σ α} {f : α → Tx ε σ β}

theorem tracks_pure {a : α} (h : Q a p) : Tracks step shows Q p (pure a : Tx ε σ α) := by
  intro s hs
  refine ⟨p, .refl, hs, fun b hb => ?_⟩
  obtain rfl : a = b := Except.ok.inj hb
  exact h

theorem tracks_raise (e : ε) : Tracks step shows Q p (raise e : Tx ε σ α) :=
  fun _ hs => ⟨p, .refl, hs, nofun⟩

theorem tracks_write {g : σ → σ} {Q : Unit → π → Prop} (hg : ∀ s, shows p s → shows p (g s))
    (h : Q () p) : Tracks step shows Q p (write g : Tx ε σ Unit) :=
  fun s hs => ⟨p, .refl, hg s hs, fun _ _ => h⟩

theorem tracks_write_step {g : σ → σ} {Q : Unit → π → Prop} (hstep : step p q)
    (hg : ∀ s, shows p s → shows q (g s)) (h : Q () q) :
    Tracks step shows Q p (write g : Tx ε σ Unit) :=
  fun s hs => ⟨q, .single hstep, hg s hs, fun _ _ => h⟩

theorem tracks_of_exec (h : ∀ s, shows p s → ∃ q s' m', exec m s = exec m' s' ∧
    ReflTransGen step p q ∧ shows q s' ∧ Tracks step shows Q q m') : Tracks step shows Q p m := by
  intro s hs
  obtain ⟨q, s', m', hm, hpq, hq, ht⟩ := h s hs
  obtain ⟨r, hqr, hr, hQ⟩ := ht s' hq
  rw [hm]
  exact ⟨r, hpq.trans hqr, hr, hQ⟩

theorem Tracks.bind (hm : Tracks step shows Q p m)
    (hf : ∀ a q, Q a q → Tracks step shows R q (f a)) : Tracks step shows R p (m >>= f) := by
  intro s hs
  obtain ⟨q, hpq, hq, hQ⟩ := hm s hs
  rw [exec_bind]
  rcases h : exec m s with ⟨e | a, s₁⟩ <;> rw [h] at hq hQ
  · exact ⟨q, hpq, hq, nofun⟩
  · obtain ⟨r, hqr, hr, hR⟩ := hf a q (hQ a rfl) s₁ hq
    exact ⟨r, hpq.trans hqr, hr, hR⟩

theorem Tracks.mono {Q' : α → π → Prop} (hm : Tracks step shows Q p m)
    (h : ∀ a q, Q a q → Q' a q) : Tracks step shows Q' p m := by
  intro s hs
  obtain ⟨q, hpq, hq, hQ⟩ := hm s hs
  exact ⟨q, hpq, hq, fun a ha => h a q (hQ a ha)⟩

end Tx

theorem reached_of_step {π : Type} {step : π → π → Prop} {I : π → Prop}
    (keep : ∀ p q, I p → step p q → I q) {p q : π} (h : Relation.ReflTransGen step p q)
    (hp : I p) : I q := by
  induction h with
  | refl => exact hp
  | tail _ hstep ih => exact keep _ _ ih hstep

end Minsight

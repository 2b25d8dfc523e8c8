import Mathlib.Algebra.Order.Group.Defs
import Mathlib.Logic.Function.Basic

/-! # Counters that expire

A counter is incremented for each event with its key and expires a fixed time after it was created.
Over a period no longer than that time, the counters count the events of the period.
-/

namespace Minsight

namespace Tally

variable {κ T : Type} [DecidableEq κ] [AddCommGroup T] [LinearOrder T]
  {start ttl now : T} {n : ℕ} {counter : Option (ℕ × T)} {counters : κ → Option (ℕ × T)}
  {events : List κ} {key : κ}

def bump (ttl now : T) : Option (ℕ × T) → ℕ × T
  | some (n, expiry) => if now < expiry then (n + 1, expiry) else (1, now + ttl)
  | none => (1, now + ttl)

/-- The counter has been incremented `n` times since `start`. -/
def Shows (start ttl : T) (n : ℕ) (counter : Option (ℕ × T)) : Prop :=
  if n = 0 then ∀ c ∈ counter, c.2 ≤ start
  else ∃ expiry, counter = some (n, expiry) ∧ start + ttl ≤ expiry

/-- The counters count the events since `start`. -/
def Counts (start ttl : T) (events : List κ) (counters : κ → Option (ℕ × T)) : Prop :=
  ∀ key, Shows start ttl (events.count key) (counters key)

theorem counts_nil (h : ∀ key, ∀ c ∈ counters key, c.2 ≤ start) :
    Counts start ttl [] counters := by
  intro key
  rw [Shows, List.count_nil, if_pos rfl]
  exact h key

variable [IsOrderedAddMonoid T]

theorem Shows.bump (h : Shows start ttl n counter) (hstart : start ≤ now)
    (hnow : now < start + ttl) :
    (bump ttl now counter).1 = n + 1 ∧ Shows start ttl (n + 1) (some (bump ttl now counter)) := by
  rw [Shows] at h
  rw [Shows, if_neg n.succ_ne_zero]
  split at h
  · rename_i hzero
    have hbump : Tally.bump ttl now counter = (1, now + ttl) := by
      cases counter with
      | none => rfl
      | some c => exact if_neg (not_lt.mpr ((h c rfl).trans hstart))
    rw [hbump, hzero]
    exact ⟨rfl, _, rfl, add_le_add_left hstart ttl⟩
  · obtain ⟨expiry, rfl, hexpiry⟩ := h
    have hbump : Tally.bump ttl now (some (n, expiry)) = (n + 1, expiry) :=
      if_pos (hnow.trans_le hexpiry)
    rw [hbump]
    exact ⟨rfl, _, rfl, hexpiry⟩

theorem Counts.bump (h : Counts start ttl events counters) (hstart : start ≤ now)
    (hnow : now < start + ttl) : Counts start ttl (events ++ [key])
      (Function.update counters key (some (bump ttl now (counters key)))) := by
  intro key'
  by_cases hkey : key' = key
  · subst hkey
    rw [Function.update_self, List.count_append, List.count_singleton_self]
    exact ((h key').bump hstart hnow).2
  · rw [Function.update_of_ne hkey, List.count_append, List.count_singleton,
      if_neg (by simpa using Ne.symm hkey)]
    exact h key'

theorem Counts.bump_fst (h : Counts start ttl events counters) (hstart : start ≤ now)
    (hnow : now < start + ttl) : (Tally.bump ttl now (counters key)).1 = events.count key + 1 :=
  ((h key).bump hstart hnow).1

end Tally

end Minsight

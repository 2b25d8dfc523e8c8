import Mathlib.Algebra.Order.Group.Int
import Mathlib.Logic.Function.Basic

/-! # Daily quotas

A counter is read once, and then several uses are made and counted one by one. A use may
begin on one day and be counted on a later one. Because days only pass, the uses that began
on the present day or later have all been counted on the day they began on.
-/

namespace Minsight

/-- The uses that began on each day, and how many each day's counter shows. -/
structure Quota where
  today : ℤ
  begun : ℤ → ℕ
  counter : ℤ → ℕ

namespace Quota

variable {q q' : Quota} {b k n : ℕ}

structure Idle (q q' : Quota) : Prop where
  today : q.today ≤ q'.today
  begun : q'.begun = q.begun
  counter : q'.counter = q.counter

/-- One use begins on the day `s` and is counted on the day `c`. -/
structure Use (s c : ℤ) (q q' : Quota) : Prop where
  begins : q.today ≤ s
  counted : s ≤ c
  today : c ≤ q'.today
  begun : q'.begun = Function.update q.begun s (q.begun s + 1)
  counter : q'.counter = Function.update q.counter c (q.counter c + 1)

/-- No day has more uses than the quota, and the counter of a day to come misses none. -/
structure Within (b : ℕ) (q : Quota) : Prop where
  bound : ∀ d, q.begun d ≤ b
  counted : ∀ d, q.today ≤ d → q.begun d ≤ q.counter d
  future : ∀ d, q.today < d → q.begun d = 0

/-- There is room for `k` more uses, on whatever days they begin. -/
structure Room (b k : ℕ) (q : Quota) : Prop extends Within b q where
  room : ∀ d, q.today ≤ d → q.begun d + k ≤ b

theorem Idle.refl (q : Quota) : Idle q q := ⟨le_rfl, rfl, rfl⟩

theorem Within.idle (h : Within b q) (hi : Idle q q') : Within b q' where
  bound d := by
    rw [hi.begun]
    exact h.bound d
  counted d hd := by
    rw [hi.begun, hi.counter]
    exact h.counted d (hi.today.trans hd)
  future d hd := by
    rw [hi.begun]
    exact h.future d (hi.today.trans_lt hd)

theorem Room.idle (h : Room b k q) (hi : Idle q q') : Room b k q' where
  toWithin := h.toWithin.idle hi
  room d hd := by
    rw [hi.begun]
    exact h.room d (hi.today.trans hd)

theorem Room.mono (h : Room b k q) (hn : n ≤ k) : Room b n q where
  toWithin := h.toWithin
  room d hd := (Nat.add_le_add_left hn _).trans (h.room d hd)

theorem Within.room (h : Within b q) (hk : q.counter q.today + k ≤ b) : Room b k q where
  toWithin := h
  room d hd := by
    rcases hd.eq_or_lt with rfl | hlt
    · exact (Nat.add_le_add_right (h.counted _ le_rfl) k).trans hk
    · rw [h.future d hlt, Nat.zero_add]
      exact (Nat.le_add_left _ _).trans hk

theorem Room.use {s c : ℤ} (h : Room b (k + 1) q) (hu : Use s c q q') : Room b k q' := by
  have hpast : q.today ≤ q'.today := hu.begins.trans (hu.counted.trans hu.today)
  have hplace := h.room s hu.begins
  constructor
  · constructor
    · intro d
      rw [hu.begun]
      by_cases hd : d = s
      · subst hd
        rw [Function.update_self]
        omega
      · rw [Function.update_of_ne hd]
        exact h.bound d
    · intro d hd
      rw [hu.begun, hu.counter]
      have hold := h.counted d (hpast.trans hd)
      by_cases hs : d = s
      · -- a day to come on which the use began is the day it was counted on
        obtain rfl : d = c := le_antisymm (hs ▸ hu.counted) (hu.today.trans hd)
        subst hs
        rw [Function.update_self, Function.update_self]
        omega
      · rw [Function.update_of_ne hs]
        by_cases hc : d = c
        · subst hc
          rw [Function.update_self]
          omega
        · rwa [Function.update_of_ne hc]
    · intro d hd
      have hs : d ≠ s := (hu.counted.trans (hu.today)).trans_lt hd |>.ne'
      rw [hu.begun, Function.update_of_ne hs]
      exact h.future d (hpast.trans_lt hd)
  · intro d hd
    rw [hu.begun]
    by_cases hs : d = s
    · subst hs
      rw [Function.update_self]
      omega
    · rw [Function.update_of_ne hs]
      have hold := h.room d (hpast.trans hd)
      omega

end Quota

end Minsight

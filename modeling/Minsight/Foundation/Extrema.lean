import Mathlib.Order.Bounds.Basic
import Mathlib.Data.List.MinMax

/-! # Running minima and maxima

The least and the greatest value of a set that grows one element at a time, where the empty
set has neither.
-/

namespace Minsight

variable {α : Type} {s : Set α} {a x : α} {o : Option α}

def LeastOf [LE α] (s : Set α) : Option α → Prop
  | none => s = ∅
  | some a => IsLeast s a

def GreatestOf [LE α] (s : Set α) : Option α → Prop
  | none => s = ∅
  | some a => IsGreatest s a

theorem LeastOf.insert [LinearOrder α] (x : α) : LeastOf s o →
    LeastOf (insert x s) (match o with
      | none => some x
      | some a => some (min a x)) := by
  intro h
  cases o with
  | none =>
    obtain rfl : s = ∅ := h
    rw [insert_empty_eq]
    exact isLeast_singleton
  | some a =>
    have hs : IsLeast (insert x s) (min x a) := IsLeast.insert x h
    rw [min_comm] at hs
    exact hs

theorem GreatestOf.insert [LinearOrder α] (x : α) : GreatestOf s o →
    GreatestOf (insert x s) (match o with
      | none => some x
      | some a => some (max a x)) := by
  intro h
  cases o with
  | none =>
    obtain rfl : s = ∅ := h
    rw [insert_empty_eq]
    exact isGreatest_singleton
  | some a =>
    have hs : IsGreatest (insert x s) (max x a) := IsGreatest.insert x h
    rw [max_comm] at hs
    exact hs

theorem greatestOf_max? [LinearOrder α] (l : List α) : GreatestOf {x | x ∈ l} l.max? := by
  cases h : l.max? with
  | none =>
    obtain rfl := List.max?_eq_none_iff.mp h
    exact Set.eq_empty_of_forall_notMem fun x hx => List.not_mem_nil hx
  | some a =>
    obtain ⟨hmem, hle⟩ := List.max?_eq_some_iff.mp h
    exact ⟨hmem, fun b hb => hle b hb⟩

end Minsight

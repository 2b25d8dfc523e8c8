import Mathlib.Algebra.Order.Group.Defs
import Mathlib.Algebra.Order.Group.Unbundled.Basic
import Mathlib.Order.Defs.LinearOrder
import Mathlib.Tactic.Abel

/-! # The time that marked moments span

How long a list of moments is marked without interruption, all such stretches together.
-/

namespace Minsight

variable {α τ : Type*} [AddCommGroup τ]

def markedSpan (marked : α → Bool) (time : α → τ) : List α → τ
  | [] => 0
  | [_] => 0
  | a :: b :: l =>
    (if marked a && marked b then time b - time a else 0) + markedSpan marked time (b :: l)

variable [LinearOrder τ] [IsOrderedAddMonoid τ] {marked : α → Bool} {time : α → τ} {l : List α}
  {low high : τ}

theorem markedSpan_le (hsorted : l.Pairwise fun a b => time a ≤ time b) (hle : low ≤ high)
    (h : ∀ a ∈ l, marked a = true → low ≤ time a ∧ time a ≤ high) :
    markedSpan marked time l ≤ high - low := by
  induction l generalizing low with
  | nil => exact sub_nonneg.mpr hle
  | cons a l ih =>
    cases l with
    | nil => exact sub_nonneg.mpr hle
    | cons b l =>
      obtain ⟨hhead, htail⟩ := List.pairwise_cons.mp hsorted
      rw [markedSpan]
      split
      · rename_i hmarked
        obtain ⟨ha, hb⟩ := Bool.and_eq_true_iff.mp hmarked
        obtain ⟨hlow, -⟩ := h a List.mem_cons_self ha
        obtain ⟨-, hhigh⟩ := h b (List.mem_cons_of_mem _ List.mem_cons_self) hb
        -- from the second moment on nothing is marked before it
        have hrest := ih htail hhigh fun c hc hmarked =>
          ⟨by
            rcases List.mem_cons.mp hc with rfl | hc
            · exact le_rfl
            · exact (List.pairwise_cons.mp htail).1 c hc,
          (h c (List.mem_cons_of_mem _ hc) hmarked).2⟩
        calc time b - time a + markedSpan marked time (b :: l)
            ≤ time b - time a + (high - time b) := add_le_add_right hrest _
          _ = high - time a := by abel
          _ ≤ high - low := sub_le_sub_left hlow high
      · rw [zero_add]
        exact ih htail hle fun c hc => h c (List.mem_cons_of_mem _ hc)

end Minsight

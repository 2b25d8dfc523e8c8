import Mathlib.Data.Finset.Dedup
import Mathlib.Data.List.Sort

/-! # Sorted sets

The distinct items of a list in their order.
-/

namespace Minsight

variable {α : Type} [LinearOrder α] {l : List α} {a : α}

/-- `sorted(set(l))` -/
def sortedSet (l : List α) : List α := l.dedup.insertionSort (· ≤ ·)

theorem sortedSet_perm (l : List α) : (sortedSet l).Perm l.dedup :=
  List.perm_insertionSort _ _

@[simp] theorem mem_sortedSet : a ∈ sortedSet l ↔ a ∈ l := by
  rw [(sortedSet_perm l).mem_iff, List.mem_dedup]

theorem nodup_sortedSet (l : List α) : (sortedSet l).Nodup :=
  (sortedSet_perm l).nodup_iff.mpr (List.nodup_dedup l)

end Minsight

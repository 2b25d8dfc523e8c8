import Mathlib.Data.List.Sort
import Mathlib.Data.String.Basic
import Minsight.Foundation.Json

/-! # JSON values up to the order of keys

The fields of an object have no order of their own. Sorting them by their keys gives every value a
representative, and reading a key does not see the difference.
-/

namespace Minsight

/-- Sorting the fields of an object leaves the first field of each key the first one. -/
theorem lookup_orderedInsert {α : Type} (f : String × α) (fields : List (String × α))
    (key : String) :
    (fields.orderedInsert (fun a b => a.1 ≤ b.1) f).lookup key = (f :: fields).lookup key := by
  induction fields with
  | nil => rfl
  | cons g fields ih =>
    rw [List.orderedInsert_cons]
    split
    · rfl
    · rename_i hle
      -- the inserted field passes one of another key
      have hne : f.1 ≠ g.1 := fun h => hle h.le
      rw [List.lookup_cons, ih, List.lookup_cons, List.lookup_cons, List.lookup_cons]
      by_cases hf : key == f.1 <;> by_cases hg : key == g.1 <;> simp only [hf, hg]
      exact absurd ((beq_iff_eq.mp hf).symm.trans (beq_iff_eq.mp hg)) hne

theorem lookup_insertionSort {α : Type} (fields : List (String × α)) (key : String) :
    (fields.insertionSort fun a b => a.1 ≤ b.1).lookup key = fields.lookup key := by
  induction fields with
  | nil => rfl
  | cons f fields ih =>
    rw [List.insertionSort_cons, lookup_orderedInsert, List.lookup_cons, ih, ← List.lookup_cons]

namespace Json

mutual

/-- The value with the fields of every object in the order of their keys. -/
def canonical : Json → Json
  | obj fields => obj ((canonicalFields fields).insertionSort fun a b => a.1 ≤ b.1)
  | arr items => arr (canonicalItems items)
  | null => null
  | bool b => bool b
  | int n => int n
  | float q => float q
  | str s => str s

def canonicalItems : List Json → List Json
  | [] => []
  | j :: js => canonical j :: canonicalItems js

def canonicalFields : List (String × Json) → List (String × Json)
  | [] => []
  | (key, value) :: fields => (key, canonical value) :: canonicalFields fields

end

attribute [local simp] canonical canonicalItems canonicalFields

variable {j k : Json}

theorem canonicalItems_eq (items : List Json) : canonicalItems items = items.map canonical := by
  induction items with
  | nil => rw [canonicalItems, List.map_nil]
  | cons j items ih => rw [canonicalItems, ih, List.map_cons]

theorem canonicalFields_eq (fields : List (String × Json)) :
    canonicalFields fields = fields.map fun f => (f.1, f.2.canonical) := by
  induction fields with
  | nil => rw [canonicalFields, List.map_nil]
  | cons f fields ih => rw [canonicalFields, ih, List.map_cons]

theorem canonical_get (j : Json) (key : String) :
    j.canonical.get? key = (j.get? key).map canonical := by
  cases j with
  | obj fields =>
    simp only [canonical, get?, lookup_insertionSort, canonicalFields_eq]
    induction fields with
    | nil => rfl
    | cons f fields ih =>
      rw [List.map_cons, List.lookup_cons, List.lookup_cons, ih]
      split <;> rfl
  | _ => simp [canonical, get?]

theorem canonical_truthy (j : Json) : j.canonical.truthy = j.truthy := by
  cases j with
  | obj fields =>
    rw [canonical, truthy, (List.perm_insertionSort _ _).isEmpty_eq, canonicalFields_eq,
      List.isEmpty_map, truthy]
  | arr items => simp [canonical, truthy, canonicalItems_eq]
  | _ => simp [canonical, truthy]

theorem get_of_canonical_eq (h : j.canonical = k.canonical) (key : String) :
    (j.get? key).map canonical = (k.get? key).map canonical := by
  rw [← canonical_get, h, canonical_get]

theorem truthy_of_canonical_eq (h : j.canonical = k.canonical) : j.truthy = k.truthy := by
  rw [← canonical_truthy, h, canonical_truthy]

theorem getD_of_canonical_eq (h : j.canonical = k.canonical) (key : String) (default : Json) :
    ((j.get? key).getD default).canonical = ((k.get? key).getD default).canonical := by
  have hget := get_of_canonical_eq h key
  cases hj : j.get? key with
  | none =>
    cases hk : k.get? key with
    | none => rfl
    | some v => simp [hj, hk] at hget
  | some v =>
    cases hk : k.get? key with
    | none => simp [hj, hk] at hget
    | some u => simpa [hj, hk] using hget

/-- Lists that are equal up to the order of keys are so item by item. -/
theorem map_canonical_of_arr {xs ys : List Json} (h : (arr xs).canonical = (arr ys).canonical) :
    xs.map canonical = ys.map canonical := by
  simpa only [canonical, canonicalItems_eq, arr.injEq] using h

theorem str_of_canonical_eq {s t : String} (h : (str s).canonical = (str t).canonical) : s = t := by
  simpa only [canonical, str.injEq] using h

end Json

end Minsight

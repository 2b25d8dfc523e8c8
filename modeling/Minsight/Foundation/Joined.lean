import Mathlib.Data.List.Forall2
import Minsight.Foundation.Text

/-! # Parts of a joined text

Parts joined by a separator can hold the separator themselves, so two lists of parts may be joined
to one text. They are the same parts as soon as each part holds the separator equally often in
both lists.
-/

namespace Minsight

section

variable {α : Type*}

/-- `sep.join(parts)` on lists. -/
def joined (sep : α) : List (List α) → List α
  | [] => []
  | [x] => x
  | x :: y :: parts => x ++ sep :: joined sep (y :: parts)

variable [DecidableEq α] {sep : α}

theorem append_sep_inj {x x' y y' : List α} (hcount : x.count sep = x'.count sep) :
    x ++ sep :: y = x' ++ sep :: y' ↔ x = x' ∧ y = y' := by
  induction x generalizing x' with
  | nil =>
    cases x' with
    | nil => simp
    | cons b x' =>
      -- the other head would start with a separator that this one does not have
      have hb : b ≠ sep := by
        rintro rfl
        simp at hcount
      simp [hb.symm]
  | cons a x ih =>
    cases x' with
    | nil =>
      have ha : a ≠ sep := by
        rintro rfl
        simp at hcount
      simp [ha]
    | cons b x' =>
      by_cases hab : a = b
      · subst hab
        rw [List.count_cons, List.count_cons, Nat.add_right_cancel_iff] at hcount
        simp [ih hcount]
      · simp [hab]

theorem joined_inj : ∀ {xs ys : List (List α)},
    List.Forall₂ (fun x y => x.count sep = y.count sep) xs ys →
      (joined sep xs = joined sep ys ↔ xs = ys)
  | _, _, .nil => by simp
  | [x], [y], .cons _ .nil => by simp [joined]
  | x :: x' :: xs, y :: y' :: ys, .cons hxy hrest => by
    simp only [joined, append_sep_inj hxy, joined_inj hrest, List.cons.injEq]

end

def separators (sep : Char) (text : String) : ℕ := text.toList.count sep

@[simp] theorem separators_append (sep : Char) (s t : String) :
    separators sep (s ++ t) = separators sep s + separators sep t := by
  simp [separators]

theorem toList_joinText (sep : Char) : ∀ parts : List String,
    (joinText (String.singleton sep) parts).toList = joined sep (parts.map String.toList)
  | [] => rfl
  | [_] => rfl
  | s :: t :: parts => by
    simp [joinText, joined, toList_joinText sep (t :: parts)]

theorem joinText_inj {sep : Char} {xs ys : List String}
    (h : xs.map (separators sep) = ys.map (separators sep)) :
    joinText (String.singleton sep) xs = joinText (String.singleton sep) ys ↔ xs = ys := by
  have hcounts : List.Forall₂ (fun x y => x.count sep = y.count sep) (xs.map String.toList)
      (ys.map String.toList) := by
    rw [List.forall₂_map_left_iff, List.forall₂_map_right_iff]
    rw [← List.forall₂_eq_eq_eq, List.forall₂_map_left_iff, List.forall₂_map_right_iff] at h
    exact h
  rw [← String.toList_inj, toList_joinText, toList_joinText, joined_inj hcounts,
    (List.map_injective_iff.mpr fun _ _ => String.toList_inj.mp).eq_iff]

end Minsight

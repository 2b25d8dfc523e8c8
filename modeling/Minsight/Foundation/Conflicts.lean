import Mathlib.Data.List.Basic
import Mathlib.Data.List.Pairwise
import Mathlib.Data.Nat.Notation

/-! # Inserting what is not there

Rows go into a table one after the other, each unless the table has a row it conflicts with.
-/

namespace Minsight

namespace Conflicts

variable {α : Type*} {same : α → α → Bool} {t rows : List α} {a b : α} {p : α → Bool}

def insertAbsent (same : α → α → Bool) (t rows : List α) : List α :=
  rows.foldl (fun t r => if t.any (same r) then t else t ++ [r]) t

def Apart (same : α → α → Bool) (t : List α) : Prop := t.Pairwise fun a b => same b a = false

theorem insertAbsent_cons_old (h : t.any (same a) = true) :
    insertAbsent same t (a :: rows) = insertAbsent same t rows := by
  rw [insertAbsent, List.foldl_cons, if_pos h, insertAbsent]

theorem insertAbsent_cons_new (h : t.any (same a) = false) :
    insertAbsent same t (a :: rows) = insertAbsent same (t ++ [a]) rows := by
  rw [insertAbsent, List.foldl_cons, if_neg (Bool.eq_false_iff.mp h), insertAbsent]

theorem prefix_insertAbsent : t <+: insertAbsent same t rows := by
  induction rows generalizing t with
  | nil => exact List.prefix_rfl
  | cons a rows ih =>
    cases h : t.any (same a) with
    | true =>
      rw [insertAbsent_cons_old h]
      exact ih
    | false =>
      rw [insertAbsent_cons_new h]
      exact (List.prefix_append _ _).trans ih

theorem any_of_prefix {t' : List α} (h : t <+: t') (ha : t.any p = true) : t'.any p = true := by
  obtain ⟨a, hmem, hp⟩ := List.any_eq_true.mp ha
  exact List.any_eq_true.mpr ⟨a, h.subset hmem, hp⟩

/-- Every row of the insert is in the table afterwards, or one it conflicts with. -/
theorem any_insertAbsent (refl : ∀ a, same a a = true) (h : a ∈ rows) :
    (insertAbsent same t rows).any (same a) = true := by
  induction rows generalizing t with
  | nil => exact absurd h List.not_mem_nil
  | cons b rows ih =>
    cases hb : t.any (same b) with
    | true =>
      rw [insertAbsent_cons_old hb]
      rcases List.mem_cons.mp h with rfl | h
      · exact any_of_prefix prefix_insertAbsent hb
      · exact ih h
    | false =>
      rw [insertAbsent_cons_new hb]
      rcases List.mem_cons.mp h with rfl | h
      · refine any_of_prefix prefix_insertAbsent (List.any_eq_true.mpr ⟨a, ?_, refl a⟩)
        exact List.mem_append_right _ (List.mem_singleton_self a)
      · exact ih h

theorem insertAbsent_eq_append :
    ∃ added, insertAbsent same t rows = t ++ added ∧ ∀ a ∈ added, a ∈ rows := by
  induction rows generalizing t with
  | nil => exact ⟨[], (List.append_nil t).symm, List.forall_mem_nil _⟩
  | cons a rows ih =>
    cases h : t.any (same a) with
    | true =>
      rw [insertAbsent_cons_old h]
      obtain ⟨added, heq, hmem⟩ := ih
      exact ⟨added, heq, fun b hb => List.mem_cons_of_mem a (hmem b hb)⟩
    | false =>
      rw [insertAbsent_cons_new h]
      obtain ⟨added, heq, hmem⟩ := ih
      refine ⟨a :: added, by rw [heq, List.append_assoc]; rfl, fun b hb => ?_⟩
      rcases List.mem_cons.mp hb with rfl | hb
      · exact List.mem_cons_self
      · exact List.mem_cons_of_mem a (hmem b hb)

theorem Apart.insertAbsent (h : Apart same t) : Apart same (insertAbsent same t rows) := by
  induction rows generalizing t with
  | nil => exact h
  | cons a rows ih =>
    cases ha : t.any (same a) with
    | true =>
      rw [insertAbsent_cons_old ha]
      exact ih h
    | false =>
      rw [insertAbsent_cons_new ha]
      refine ih (List.pairwise_append.mpr ⟨h, List.pairwise_singleton _ _, fun b hb c hc => ?_⟩)
      rw [List.mem_singleton.mp hc]
      exact Bool.eq_false_iff.mpr fun hs => List.any_eq_false.mp ha b hb hs

theorem insertAbsent_eq_self (h : ∀ a ∈ rows, t.any (same a) = true) :
    insertAbsent same t rows = t := by
  induction rows with
  | nil => rfl
  | cons a rows ih =>
    rw [insertAbsent_cons_old (h a List.mem_cons_self)]
    exact ih fun b hb => h b (List.mem_cons_of_mem a hb)

theorem length_insertAbsent_le : (insertAbsent same t rows).length ≤ t.length + rows.length := by
  induction rows generalizing t with
  | nil => exact Nat.le_refl _
  | cons a rows ih =>
    cases h : t.any (same a) with
    | true =>
      rw [insertAbsent_cons_old h, List.length_cons]
      exact Nat.le_succ_of_le ih
    | false =>
      rw [insertAbsent_cons_new h, List.length_cons]
      have hrest : _ ≤ (t ++ [a]).length + rows.length := ih
      rw [List.length_append, List.length_singleton] at hrest
      omega

/-- The part of the table that rows can conflict with is all that an insert depends on. -/
theorem filter_insertAbsent (part : ∀ a b, same a b = true → p b = p a)
    (h : ∀ a ∈ rows, p a = true) :
    (insertAbsent same t rows).filter p = insertAbsent same (t.filter p) rows := by
  induction rows generalizing t with
  | nil => rfl
  | cons a rows ih =>
    have hrest := fun b hb => h b (List.mem_cons_of_mem a hb)
    have hany : (t.filter p).any (same a) = t.any (same a) := by
      rw [List.any_filter]
      refine List.any_congr rfl fun b => ?_
      cases hs : same a b with
      | true => rw [part a b hs, h a List.mem_cons_self]; rfl
      | false => exact Bool.and_false _
    cases ha : t.any (same a) with
    | true =>
      rw [insertAbsent_cons_old ha, insertAbsent_cons_old (hany.trans ha)]
      exact ih hrest
    | false =>
      rw [insertAbsent_cons_new ha, insertAbsent_cons_new (hany.trans ha), ih hrest,
        List.filter_append, List.filter_singleton, h a List.mem_cons_self]
      rfl

theorem length_filter_insertAbsent (h : ∀ a ∈ rows, p a = true) :
    ((insertAbsent same t rows).filter p).length - (t.filter p).length =
      (insertAbsent same t rows).length - t.length := by
  obtain ⟨added, heq, hmem⟩ : ∃ added, insertAbsent same t rows = t ++ added ∧ _ :=
    insertAbsent_eq_append
  have hall : added.filter p = added := List.filter_eq_self.mpr fun a ha => h a (hmem a ha)
  rw [heq, List.filter_append, hall, List.length_append, List.length_append]
  omega

theorem filter_insertAbsent_other (h : ∀ a ∈ rows, p a = false) :
    (insertAbsent same t rows).filter p = t.filter p := by
  induction rows generalizing t with
  | nil => rfl
  | cons a rows ih =>
    have hrest := fun b hb => h b (List.mem_cons_of_mem a hb)
    cases ha : t.any (same a) with
    | true =>
      rw [insertAbsent_cons_old ha]
      exact ih hrest
    | false =>
      rw [insertAbsent_cons_new ha, ih hrest, List.filter_append, List.filter_singleton,
        h a List.mem_cons_self]
      exact List.append_nil _

end Conflicts

end Minsight

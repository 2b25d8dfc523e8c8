import Mathlib.Data.Int.ConditionallyCompleteOrder
import Mathlib.Data.List.Forall2
import Mathlib.Data.List.MinMax
import Mathlib.Data.List.Sort
import Mathlib.Data.List.Nodup
import Mathlib.Data.Prod.Lex
import Mathlib.Order.WithBot

/-! # Tables as lists of rows

A table is the list of its rows in insertion order and the primary key of a row
is its position. Rows are inserted at the end and updated in place, and nothing
is ever deleted, so keys are unique by construction. Queries select keyed rows,
order them and cut the result.
-/

namespace Minsight

/-- The rows of a table in insertion order. A row's primary key is its position. -/
abbrev Rows (α : Type) := List α

namespace Rows

variable {α β : Type} {t : Rows α} {a b : α} {i j : ℕ} {p : ℕ → α → Bool}

def select (p : ℕ → α → Bool) (t : Rows α) : List (ℕ × α) :=
  (t.zipIdx.map Prod.swap).filter fun r => p r.1 r.2

@[simp] theorem mem_select : (i, a) ∈ select p t ↔ t[i]? = some a ∧ p i a = true := by
  simp [select, List.mem_zipIdx_iff_getElem?]

theorem select_keys (p : ℕ → α → Bool) (t : Rows α) :
    ((select p t).map Prod.fst).Sublist (List.range t.length) := by
  have h : ((t.zipIdx.map Prod.swap).map Prod.fst) = List.range t.length := by
    simp [Function.comp_def, List.zipIdx_map_snd, List.range_eq_range']
  rw [← h]
  exact List.filter_sublist.map _

theorem select_keys_nodup (p : ℕ → α → Bool) (t : Rows α) :
    ((select p t).map Prod.fst).Nodup :=
  (select_keys p t).nodup List.nodup_range

theorem select_map {p : ℕ → β → Bool} (f : α → β) (t : Rows α) :
    select p (t.map f) = (select (fun i a => p i (f a)) t).map (Prod.map id f) := by
  unfold select
  rw [List.zipIdx_map, List.map_map, List.filter_map, List.filter_map, List.map_map]
  rfl

theorem select_insert (p : ℕ → α → Bool) (t : Rows α) (a : α) :
    select p (t ++ [a]) = select p t ++ if p t.length a then [(t.length, a)] else [] := by
  simp [select, List.zipIdx_append, List.filter_cons]

theorem select_update {f : α → α} (h : ∀ a, p i (f a) = p i a) :
    select p (t.modify i f) = (select p t).map fun r => (r.1, if r.1 = i then f r.2 else r.2) := by
  have hrows : (t.modify i f).zipIdx.map Prod.swap =
      (t.zipIdx.map Prod.swap).map fun r => (r.1, if r.1 = i then f r.2 else r.2) := by
    apply List.ext_getElem?
    intro k
    by_cases hk : k = i
    · simp [hk, Option.map_map, Function.comp_def]
    · simp [hk, Ne.symm hk, Option.map_map, Function.comp_def]
  rw [select, hrows, List.filter_map, select]
  congr 1
  apply List.filter_congr
  rintro ⟨k, a⟩ -
  by_cases hk : k = i
  · subst hk
    simp [h]
  · simp [hk]

/-- Order the selected rows and keep the first `n`. -/
def orderLimit (before : α → α → Prop) [DecidableRel before] (n : ℕ) (l : List α) : List α :=
  (l.insertionSort before).take n

/-- A nullable column where `NULL` comes after every value. -/
def nullHigh (b : Option β) : WithTop β := b.elim ⊤ fun b => ↑b

/-- A nullable column where `NULL` comes before every value. -/
def nullLow (b : Option β) : WithBot β := b.elim ⊥ fun b => ↑b

theorem some_le_nullLow [LinearOrder β] {b : β} {o : Option β}
    (h : nullLow (some b) ≤ nullLow o) : ∃ b', o = some b' ∧ b ≤ b' := by
  cases o with
  | none => exact absurd h (not_le.mpr (WithBot.bot_lt_coe b))
  | some b' => exact ⟨b', rfl, WithBot.coe_le_coe.mp h⟩

/-- `ORDER BY key ASC`, with equal rows in the order of `tie`. -/
def ascending [LinearOrder β] (key : α → β) (tie : α → ℕ) (x y : α) : Prop :=
  key x < key y ∨ key x = key y ∧ tie x ≤ tie y

/-- `ORDER BY key DESC`, with equal rows in the order of `tie`. -/
def descending [LinearOrder β] (key : α → β) (tie : α → ℕ) (x y : α) : Prop :=
  key y < key x ∨ key x = key y ∧ tie x ≤ tie y

section Keys

variable [LinearOrder β] {key : α → β} {tie : α → ℕ}

instance : DecidableRel (ascending key tie) := fun _ _ => inferInstanceAs (Decidable (_ ∨ _))

instance : DecidableRel (descending key tie) := fun _ _ => inferInstanceAs (Decidable (_ ∨ _))

theorem descending.le {x y : α} (h : descending key tie x y) : key y ≤ key x :=
  h.elim le_of_lt fun h => h.1.ge

instance : Std.Total (descending key tie) where
  total x y := by
    rcases lt_trichotomy (key x) (key y) with h | h | h
    · exact .inr (.inl h)
    · rcases le_total (tie x) (tie y) with ht | ht
      · exact .inl (.inr ⟨h, ht⟩)
      · exact .inr (.inr ⟨h.symm, ht⟩)
    · exact .inl (.inl h)

instance : IsTrans α (descending key tie) where
  trans x y z hxy hyz := by
    rcases hxy with hxy | ⟨hxy, ht⟩
    · exact .inl (lt_of_le_of_lt hyz.le hxy)
    · rcases hyz with hyz | ⟨hyz, ht'⟩
      · exact .inl (hxy ▸ hyz)
      · exact .inr ⟨hxy.trans hyz, ht.trans ht'⟩

end Keys

section Order

variable {before : α → α → Prop} [DecidableRel before]

theorem mem_of_mem_orderLimit {n : ℕ} {l : List α} (h : a ∈ orderLimit before n l) : a ∈ l :=
  (List.perm_insertionSort before l).subset (List.mem_of_mem_take h)

theorem head_orderLimit_ne_none {l : List α} (h : a ∈ l) :
    (orderLimit before 1 l).head? ≠ none := by
  intro hhead
  have hsorted := List.head?_eq_none_iff.mp hhead
  rw [orderLimit, List.take_eq_nil_iff] at hsorted
  have hlength := congrArg List.length (hsorted.resolve_left Nat.one_ne_zero)
  rw [List.length_insertionSort] at hlength
  exact (List.length_pos_of_mem h).ne' hlength

theorem head_orderLimit [Std.Total before] [IsTrans α before] {l : List α}
    (h : (orderLimit before 1 l).head? = some a) : a ∈ l ∧ ∀ b ∈ l, before a b := by
  have hsorted := List.pairwise_insertionSort before l
  have hperm := List.perm_insertionSort before l
  unfold orderLimit at h
  cases hl : l.insertionSort before with
  | nil => simp [hl] at h
  | cons c rest =>
    obtain rfl : c = a := by simpa [hl] using h
    rw [hl] at hsorted hperm
    refine ⟨hperm.subset List.mem_cons_self, fun b hb => ?_⟩
    rcases List.mem_cons.mp (hperm.symm.subset hb) with rfl | hmem
    · exact (Std.Total.total b b).elim id id
    · exact List.rel_of_pairwise_cons hsorted hmem

theorem orderLimit_map_nodup {n : ℕ} {l : List α} (f : α → β) (h : (l.map f).Nodup) :
    ((orderLimit before n l).map f).Nodup := by
  have hp : ((l.insertionSort before).map f).Perm (l.map f) :=
    (List.perm_insertionSort before l).map f
  exact ((List.take_sublist n _).map f).nodup (hp.nodup_iff.mpr h)

theorem length_orderLimit_le {n : ℕ} {l : List α} : (orderLimit before n l).length ≤ n := by
  simp [orderLimit]

end Order

theorem getElem?_insert : (t ++ [a])[i]? = some b ↔ t[i]? = some b ∨ (i = t.length ∧ b = a) := by
  rcases lt_trichotomy i t.length with h | h | h
  · rw [List.getElem?_append_left h]
    exact ⟨Or.inl, fun hb => hb.resolve_right fun he => absurd he.1 h.ne⟩
  · subst h
    simp [eq_comm]
  · have hn : t[i]? = none := List.getElem?_eq_none h.le
    have hn' : (t ++ [a])[i]? = none := List.getElem?_eq_none (by simp; omega)
    simp [hn, hn', h.ne']

theorem getElem?_update {f : α → α} :
    (t.modify i f)[j]? = some b ↔
      (i = j ∧ ∃ a, t[j]? = some a ∧ f a = b) ∨ (i ≠ j ∧ t[j]? = some b) := by
  rw [List.getElem?_modify]
  by_cases h : i = j <;> simp [h]

theorem mem_update {f : α → α} (h : b ∈ t.modify i f) : b ∈ t ∨ ∃ a ∈ t, f a = b := by
  obtain ⟨j, hj⟩ := List.mem_iff_getElem?.mp h
  rcases getElem?_update.mp hj with ⟨-, a, ha, rfl⟩ | ⟨-, hb⟩
  · exact .inr ⟨a, List.mem_of_getElem? ha, rfl⟩
  · exact .inl (List.mem_of_getElem? hb)

theorem map_update {f : α → α} {f' : β → β} {g : α → β} (h : ∀ a, g (f a) = f' (g a)) :
    (t.modify i f).map g = (t.map g).modify i f' := by
  apply List.ext_getElem?
  intro j
  rw [List.getElem?_map, List.getElem?_modify, List.getElem?_modify, List.getElem?_map]
  cases t[j]? with
  | none => simp
  | some a => by_cases hj : i = j <;> simp [hj, h]

theorem map_update_eq {f : α → α} {g : α → β} (h : ∀ a, g (f a) = g a) :
    (t.modify i f).map g = t.map g := by
  have hid : ∀ a, g (f a) = id (g a) := h
  rw [map_update hid, List.modify_id]

theorem update_congr {f g : α → α} (h : ∀ a, t[i]? = some a → f a = g a) :
    t.modify i f = t.modify i g := by
  apply List.ext_getElem?
  intro j
  rw [List.getElem?_modify, List.getElem?_modify]
  cases hrow : t[j]? with
  | none => rfl
  | some a =>
    by_cases hj : i = j
    · subst hj
      simp [h a hrow]
    · simp [hj]

theorem update_eq_self {f : α → α} (h : ∀ a, t[i]? = some a → f a = a) : t.modify i f = t := by
  rw [update_congr (g := id) h, List.modify_id]

theorem forall₂_update {R : α → α → Prop} {f : α → α} (refl : ∀ a, R a a)
    (h : ∀ a, t[i]? = some a → R a (f a)) : List.Forall₂ R t (t.modify i f) := by
  induction t generalizing i with
  | nil => simp
  | cons c t ih =>
    cases i with
    | zero => exact .cons (h c (by simp)) (List.forall₂_same.mpr fun a _ => refl a)
    | succ i =>
      rw [List.modify_succ_cons]
      exact .cons (refl c) (ih fun a ha => h a (by simpa using ha))

theorem countP_le_of_forall₂ {R : α → β → Prop} {p : α → Bool} {q : β → Bool} {u : Rows β}
    (h : List.Forall₂ R t u) (hR : ∀ a b, R a b → q b = true → p a = true) :
    u.countP q ≤ t.countP p := by
  induction h with
  | nil => exact le_rfl
  | cons hab _ ih =>
    rw [List.countP_cons, List.countP_cons]
    refine Nat.add_le_add ih ?_
    split
    · rename_i hq
      rw [if_pos (hR _ _ hab hq)]
    · exact Nat.zero_le _

theorem getElem?_of_forall₂ {R : α → β → Prop} {u : Rows β} {b : β} (h : List.Forall₂ R t u)
    (hb : u[i]? = some b) : ∃ a, t[i]? = some a ∧ R a b := by
  induction h generalizing i with
  | nil => cases hb
  | @cons a _ _ _ hab _ ih =>
    cases i with
    | zero =>
      obtain rfl := Option.some.inj hb
      exact ⟨a, rfl, hab⟩
    | succ i => exact ih hb

theorem filter_update {f : α → α} {p : α → Bool}
    (h : ∀ a, t[i]? = some a → p a = false ∧ p (f a) = false) :
    (t.modify i f).filter p = t.filter p := by
  induction t generalizing i with
  | nil => rw [List.modify_nil]
  | cons c t ih =>
    cases i with
    | zero =>
      obtain ⟨hc, hf⟩ := h c rfl
      rw [List.modify_zero_cons, List.filter_cons_of_neg (ne_true_of_eq_false hf),
        List.filter_cons_of_neg (ne_true_of_eq_false hc)]
    | succ i =>
      rw [List.modify_succ_cons, List.filter_cons, List.filter_cons, ih fun a ha => h a ha]

theorem update_insert {f : α → α} : (t ++ [a]).modify t.length f = t ++ [f a] := by
  induction t with
  | nil => rfl
  | cons c t ih => rw [List.cons_append, List.length_cons, List.modify_succ_cons, ih, List.cons_append]

theorem lt_of_getElem? (h : t[i]? = some a) : i < t.length :=
  (List.getElem?_eq_some_iff.mp h).1

end Rows

end Minsight

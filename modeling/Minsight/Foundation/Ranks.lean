import Minsight.Foundation.Rows

/-! # Ranks

Sorting leaves rows that tie in the order of their keys, so the rows of a query are strictly
ordered. A limit keeps exactly the rows with fewer rows ahead of them than it allows.
-/

namespace Minsight

namespace Rows

variable {α : Type} {before : ℕ × α → ℕ × α → Prop} {n : ℕ} {x y : ℕ × α} {l : List (ℕ × α)}

/-- A row comes before another one, or ties with it and has the smaller key. -/
def Ahead (before : ℕ × α → ℕ × α → Prop) (x y : ℕ × α) : Prop :=
  before x y ∧ (before y x → x.1 < y.1)

instance [DecidableRel before] : DecidableRel (Ahead before) :=
  fun _ _ => inferInstanceAs (Decidable (_ ∧ _))

def rank (before : ℕ × α → ℕ × α → Prop) [DecidableRel before] (l : List (ℕ × α))
    (x : ℕ × α) : ℕ :=
  l.countP fun y => decide (Ahead before y x)

theorem Ahead.asymm (h : Ahead before x y) : ¬ Ahead before y x := by
  intro h'
  have hlt : x.1 < y.1 := h.2 h'.1
  have hgt : y.1 < x.1 := h'.2 h.1
  omega

/-- A property of one of the first rows is a property of a row with few rows ahead of it. -/
theorem exists_mem_take_iff {β : Type} {R : β → β → Prop} [DecidableRel R]
    (asymm : ∀ a b, R a b → ¬ R b a) {p : β → Prop} {l : List β} (h : l.Pairwise R) {n : ℕ} :
    (∃ a ∈ l.take n, p a) ↔ ∃ a ∈ l, p a ∧ l.countP (fun b => decide (R b a)) < n := by
  induction l generalizing n with
  | nil => simp
  | cons a l ih =>
    obtain ⟨hfirst, hrest⟩ := List.pairwise_cons.mp h
    cases n with
    | zero => simp
    | succ n =>
      have hself : (a :: l).countP (fun b => decide (R b a)) = 0 := by
        rw [List.countP_eq_zero]
        intro b hb hba
        rcases List.mem_cons.mp hb with rfl | hb
        · exact asymm _ _ (of_decide_eq_true hba) (of_decide_eq_true hba)
        · exact asymm _ _ (hfirst b hb) (of_decide_eq_true hba)
      have hlater : ∀ b ∈ l, (a :: l).countP (fun c => decide (R c b)) =
          l.countP (fun c => decide (R c b)) + 1 := by
        intro b hb
        exact List.countP_cons_of_pos (decide_eq_true (hfirst b hb))
      rw [List.take_succ_cons, List.exists_mem_cons_iff, List.exists_mem_cons_iff, ih hrest, hself]
      constructor
      · rintro (hp | ⟨b, hb, hp, hn⟩)
        · exact .inl ⟨hp, Nat.succ_pos n⟩
        · exact .inr ⟨b, hb, hp, by rw [hlater b hb]; omega⟩
      · rintro (⟨hp, -⟩ | ⟨b, hb, hp, hn⟩)
        · exact .inl hp
        · rw [hlater b hb] at hn
          exact .inr ⟨b, hb, hp, by omega⟩

section Sorting

variable [DecidableRel before]

theorem orderedInsert_ahead [Std.Total before] [IsTrans (ℕ × α) before]
    (hkeys : ∀ y ∈ l, x.1 < y.1) (h : l.Pairwise (Ahead before)) :
    (l.orderedInsert before x).Pairwise (Ahead before) := by
  induction l with
  | nil => simp
  | cons y l ih =>
    obtain ⟨hfirst, hrest⟩ := List.pairwise_cons.mp h
    by_cases hxy : before x y
    · rw [List.orderedInsert_cons_of_le before l hxy]
      refine List.pairwise_cons.mpr ⟨fun z hz => ⟨?_, fun _ => hkeys z hz⟩, h⟩
      rcases List.mem_cons.mp hz with rfl | hz
      · exact hxy
      · exact IsTrans.trans _ _ _ hxy (hfirst z hz).1
    · rw [List.orderedInsert_of_not_le before l hxy]
      refine List.pairwise_cons.mpr
        ⟨fun z hz => ?_, ih (fun z hz => hkeys z (List.mem_cons_of_mem _ hz)) hrest⟩
      rcases List.mem_orderedInsert before |>.mp hz with rfl | hz
      · exact ⟨(Std.Total.total z y).resolve_left hxy, fun h => absurd h hxy⟩
      · exact hfirst z hz

theorem insertionSort_ahead [Std.Total before] [IsTrans (ℕ × α) before]
    (h : l.Pairwise fun x y => x.1 < y.1) : (l.insertionSort before).Pairwise (Ahead before) := by
  induction l with
  | nil => simp
  | cons x l ih =>
    obtain ⟨hfirst, hrest⟩ := List.pairwise_cons.mp h
    rw [List.insertionSort_cons]
    refine orderedInsert_ahead (fun y hy => hfirst y ?_) (ih hrest)
    exact (List.perm_insertionSort before l).subset hy

theorem select_pairwise (p : ℕ → α → Bool) (t : Rows α) :
    (select p t).Pairwise fun x y => x.1 < y.1 :=
  List.pairwise_map.mp (List.pairwise_lt_range.sublist (select_keys p t))

/-- A query under a limit finds a row with a property iff one has few enough rows ahead of it. -/
theorem exists_mem_orderLimit_iff [Std.Total before] [IsTrans (ℕ × α) before]
    {q : ℕ × α → Prop} (p : ℕ → α → Bool) (t : Rows α) :
    (∃ x ∈ orderLimit before n (select p t), q x) ↔
      ∃ x ∈ select p t, q x ∧ rank before (select p t) x < n := by
  have hperm := List.perm_insertionSort before (select p t)
  unfold orderLimit
  rw [exists_mem_take_iff (fun _ _ => Ahead.asymm) (insertionSort_ahead (select_pairwise p t))]
  constructor
  · rintro ⟨x, hx, hq, hrank⟩
    exact ⟨x, hperm.subset hx, hq, (hperm.countP_eq _).symm.trans_lt hrank⟩
  · rintro ⟨x, hx, hq, hrank⟩
    exact ⟨x, hperm.symm.subset hx, hq, (hperm.countP_eq _).trans_lt hrank⟩

end Sorting

end Rows

end Minsight

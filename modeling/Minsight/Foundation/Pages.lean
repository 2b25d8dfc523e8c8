import Mathlib.Data.List.Pairwise
import Minsight.Foundation.Rows

/-! # Offset pages

Every page of a query orders the rows again, and rows that the order does not tell apart may
stand in another order each time. The pages hold every row once exactly if no rows that are
not told apart stand on different pages.
-/

namespace Minsight

namespace Rows

variable {α β ι : Type}

/-- `ORDER BY key ASC` -/
def asc [LinearOrder β] (key : α → β) (x y : α) : Prop := key x ≤ key y

/-- `ORDER BY key DESC` -/
def desc [LinearOrder β] (key : α → β) (x y : α) : Prop := key y ≤ key x

/-- Order by `r`, and rows that `r` does not tell apart by `s`. -/
def thenBy (r s : α → α → Prop) (x y : α) : Prop := r x y ∧ (r y x → s x y)

section Instances

variable [LinearOrder β] {key : α → β} {r s : α → α → Prop}

instance : DecidableRel (asc key) := fun _ _ => inferInstanceAs (Decidable (_ ≤ _))

instance : DecidableRel (desc key) := fun _ _ => inferInstanceAs (Decidable (_ ≤ _))

instance [DecidableRel r] [DecidableRel s] : DecidableRel (thenBy r s) :=
  fun _ _ => inferInstanceAs (Decidable (_ ∧ _))

instance : Std.Total (asc key) where
  total _ _ := le_total _ _

instance : Std.Total (desc key) where
  total _ _ := le_total _ _

instance : IsTrans α (asc key) where
  trans _ _ _ := le_trans

instance : IsTrans α (desc key) where
  trans _ _ _ hxy hyz := le_trans hyz hxy

instance [Std.Total r] [Std.Total s] : Std.Total (thenBy r s) where
  total x y := by
    by_cases hxy : r x y
    · by_cases hyx : r y x
      · rcases Std.Total.total (r := s) x y with h | h
        · exact .inl ⟨hxy, fun _ => h⟩
        · exact .inr ⟨hyx, fun _ => h⟩
      · exact .inl ⟨hxy, fun h => absurd h hyx⟩
    · have hyx := (Std.Total.total (r := r) x y).resolve_left hxy
      exact .inr ⟨hyx, fun h => absurd h hxy⟩

instance [IsTrans α r] [IsTrans α s] : IsTrans α (thenBy r s) where
  trans x y z hxy hyz := by
    refine ⟨IsTrans.trans _ _ _ hxy.1 hyz.1, fun hzx => ?_⟩
    have hyx : r y x := IsTrans.trans _ _ _ hyz.1 hzx
    have hzy : r z y := IsTrans.trans _ _ _ hzx hxy.1
    exact IsTrans.trans _ _ _ (hxy.2 hyx) (hyz.2 hzy)

end Instances

section Places

variable (before : α → α → Prop) [DecidableRel before]

/-- The first place among `l` that the order leaves to a row. -/
def firstPlace (l : List α) (x : α) : ℕ := l.countP fun y => decide (before y x ∧ ¬ before x y)

/-- The last place among `l` that the order leaves to a row. -/
def lastPlace (l : List α) (x : α) : ℕ := l.countP (fun y => decide (before y x)) - 1

variable {before} {l r : List α} {x : α} {i : ℕ}

theorem lastPlace_lt (h : x ∈ l) : lastPlace before l x < l.length := by
  have hpos : 0 < l.length := List.length_pos_of_mem h
  have hle := List.countP_le_length (p := fun y => decide (before y x)) (l := l)
  unfold lastPlace
  omega

theorem firstPlace_lt [Std.Total before] (h : x ∈ l) : firstPlace before l x < l.length := by
  have hself : before x x := (Std.Total.total _ _).elim id id
  refine lt_of_le_of_ne List.countP_le_length fun hall => ?_
  exact (of_decide_eq_true (List.countP_eq_length.mp hall x h)).2 hself

theorem place_bounds [Std.Total before] (hr : r.Pairwise before) (hx : r[i]? = some x) :
    firstPlace before r x ≤ i ∧ i ≤ lastPlace before r x := by
  obtain ⟨earlier, later, rfl, rfl⟩ : ∃ earlier later, r = earlier ++ x :: later ∧
      earlier.length = i := by
    obtain ⟨hi, rfl⟩ := List.getElem?_eq_some_iff.mp hx
    refine ⟨r.take i, r.drop (i + 1), ?_, List.length_take_of_le hi.le⟩
    rw [← List.drop_eq_getElem_cons hi, List.take_append_drop]
  have hself : before x x := (Std.Total.total _ _).elim id id
  obtain ⟨-, hlater, hearlier⟩ := List.pairwise_append.mp hr
  constructor
  · -- A row that is strictly before cannot come later.
    have hnone : (x :: later).countP (fun y => decide (before y x ∧ ¬ before x y)) = 0 := by
      rw [List.countP_eq_zero]
      intro y hy
      rw [decide_eq_true_iff]
      rintro ⟨-, hstrict⟩
      rcases List.mem_cons.mp hy with rfl | hy
      · exact hstrict hself
      · exact hstrict (List.rel_of_pairwise_cons hlater hy)
    rw [firstPlace, List.countP_append, hnone, Nat.add_zero]
    exact List.countP_le_length
  · have hall : earlier.countP (fun y => decide (before y x)) = earlier.length := by
      rw [List.countP_eq_length]
      intro y hy
      exact decide_eq_true (hearlier y hy x List.mem_cons_self)
    have hrest : (x :: later).countP (fun y => decide (before y x)) =
        later.countP (fun y => decide (before y x)) + 1 :=
      List.countP_cons_of_pos (decide_eq_true hself)
    rw [lastPlace, List.countP_append, hall, hrest]
    omega

end Places

def orderPage (before : α → α → Prop) [DecidableRel before] (size page : ℕ) (l : List α) :
    List α :=
  ((l.insertionSort before).drop ((page - 1) * size)).take size

/-- The number of pages that hold `total` rows. -/
def pageCount (size total : ℕ) : ℕ := (total + size - 1) / size

section Pages

variable {before : α → α → Prop} [DecidableRel before] {key : α → ι} {l : List α} {x : α}
  {size page i : ℕ}

theorem mem_orderPage (hsize : 0 < size) (hpage : 0 < page) :
    x ∈ orderPage before size page l ↔
      ∃ i, (l.insertionSort before)[i]? = some x ∧ i / size + 1 = page := by
  rw [orderPage, List.mem_iff_getElem?]
  simp only [List.getElem?_take, List.getElem?_drop]
  constructor
  · rintro ⟨j, hj⟩
    split at hj
    · rename_i hlt
      refine ⟨(page - 1) * size + j, hj, ?_⟩
      rw [Nat.mul_comm, Nat.mul_add_div hsize, Nat.div_eq_of_lt hlt]
      omega
    · cases hj
  · rintro ⟨i, hi, rfl⟩
    refine ⟨i % size, ?_⟩
    rw [if_pos (Nat.mod_lt _ hsize), Nat.add_sub_cancel, Nat.div_add_mod', hi]

theorem orderPage_sublist : (orderPage before size page l).Sublist (l.insertionSort before) :=
  (List.take_sublist _ _).trans (List.drop_sublist _ _)

theorem place_page (hsize : 0 < size) (hi : i < l.length) :
    i / size + 1 ∈ List.range' 1 (pageCount size l.length) := by
  rw [List.mem_range'_1, pageCount]
  have hlast : i / size < (l.length + size - 1) / size := by
    rw [Nat.div_lt_iff_lt_mul hsize]
    have h := Nat.div_add_mod (l.length + size - 1) size
    have hmod := Nat.mod_lt (l.length + size - 1) hsize
    rw [Nat.mul_comm] at h
    omega
  exact ⟨Nat.le_add_left 1 _, by rw [Nat.add_comm 1]; exact Nat.succ_lt_succ hlast⟩

/-- The order of a query that leaves rows it does not tell apart in the order of `tie`. -/
abbrev arranged (before : α → α → Prop) (key : α → ι) (tie : ι → ℕ) : α → α → Prop :=
  thenBy before (asc (tie ∘ key))

/-- The pages of a query, each in an order of its own for rows that are not told apart. -/
def allPages (before : α → α → Prop) [DecidableRel before] (key : α → ι) (tie : ℕ → ι → ℕ)
    (size : ℕ) (l : List α) : List α :=
  (List.range' 1 (pageCount size l.length)).flatMap fun page =>
    orderPage (arranged before key (tie page)) size page l

variable [Std.Total before] [IsTrans α before]

theorem mem_orderPage_arranged {tie : ι → ℕ} (hsize : 0 < size) (hpage : 0 < page)
    (hone : firstPlace before l x / size = lastPlace before l x / size) :
    x ∈ orderPage (arranged before key tie) size page l ↔
      x ∈ l ∧ firstPlace before l x / size + 1 = page := by
  have hperm := List.perm_insertionSort (arranged before key tie) l
  have hsorted : (l.insertionSort (arranged before key tie)).Pairwise before :=
    (List.pairwise_insertionSort (arranged before key tie) l).imp fun h => h.1
  have hplace {i : ℕ} (hi : (l.insertionSort (arranged before key tie))[i]? = some x) :
      i / size = firstPlace before l x / size := by
    obtain ⟨hfirst, hlast⟩ := place_bounds hsorted hi
    rw [firstPlace, hperm.countP_eq] at hfirst
    rw [lastPlace, hperm.countP_eq] at hlast
    have hle : firstPlace before l x / size ≤ i / size := Nat.div_le_div_right hfirst
    have hge : i / size ≤ lastPlace before l x / size := Nat.div_le_div_right hlast
    exact le_antisymm (hone ▸ hge) hle
  rw [mem_orderPage hsize hpage]
  constructor
  · rintro ⟨i, hi, rfl⟩
    exact ⟨hperm.mem_iff.mp (List.mem_of_getElem? hi), by rw [hplace hi]⟩
  · rintro ⟨hx, rfl⟩
    obtain ⟨i, hi⟩ := List.mem_iff_getElem?.mp (hperm.mem_iff.mpr hx)
    exact ⟨i, hi, by rw [hplace hi]⟩

theorem allPages_perm {tie : ℕ → ι → ℕ} (hl : l.Nodup) (hsize : 0 < size)
    (hone : ∀ x ∈ l, firstPlace before l x / size = lastPlace before l x / size) :
    (allPages before key tie size l).Perm l := by
  have hmem {x : α} {page : ℕ} (hpage : page ∈ List.range' 1 (pageCount size l.length)) :
      x ∈ orderPage (arranged before key (tie page)) size page l ↔
        x ∈ l ∧ firstPlace before l x / size + 1 = page := by
    have hpos : 0 < page := (List.mem_range'_1.mp hpage).1
    by_cases hx : x ∈ l
    · exact mem_orderPage_arranged hsize hpos (hone x hx)
    · refine iff_of_false (fun h => hx ?_) (fun h => hx h.1)
      exact (List.perm_insertionSort _ l).mem_iff.mp (orderPage_sublist.subset h)
  rw [List.perm_ext_iff_of_nodup ?_ hl]
  · intro x
    rw [allPages, List.mem_flatMap]
    constructor
    · rintro ⟨page, hpage, hx⟩
      exact ((hmem hpage).mp hx).1
    · intro hx
      have hpage := place_page hsize (@firstPlace_lt _ before _ _ _ _ hx)
      exact ⟨_, hpage, (hmem hpage).mpr ⟨hx, rfl⟩⟩
  · rw [allPages, List.nodup_flatMap]
    constructor
    · intro page _
      exact orderPage_sublist.nodup ((List.perm_insertionSort _ l).nodup_iff.mpr hl)
    · refine List.pairwise_iff_forall_sublist.mpr fun {page page'} hsub => ?_
      have hmembers := hsub.subset
      have hne : page ≠ page' := by
        have hnodup := hsub.nodup List.nodup_range'
        exact (List.nodup_cons.mp hnodup).1 ∘ List.mem_singleton.mpr
      intro x hx hx'
      have hpage := ((hmem (hmembers List.mem_cons_self)).mp hx).2
      have hpage' := ((hmem (hmembers (List.mem_cons_of_mem _ List.mem_cons_self))).mp hx').2
      exact hne (hpage.symm.trans hpage')

theorem countP_le_add {p q r : α → Bool} (h : ∀ y ∈ l, p y = true → q y = true ∨ r y = true) :
    l.countP p ≤ l.countP q + l.countP r := by
  induction l with
  | nil => exact Nat.zero_le _
  | cons a l ih =>
    have hrest := ih fun y hy => h y (List.mem_cons_of_mem _ hy)
    have ha := h a List.mem_cons_self
    simp only [List.countP_cons]
    by_cases hp : p a = true
    · rcases ha hp with hq | hr
      · rw [if_pos hp, if_pos hq]
        omega
      · rw [if_pos hp, if_pos hr]
        omega
    · rw [if_neg hp]
      omega

variable [DecidableEq ι]

theorem countP_key_le (hl : (l.map key).Nodup) :
    l.countP (fun y => decide (key y = key x)) ≤ 1 := by
  have hcount : (l.map key).count (key x) = l.countP fun y => decide (key y = key x) := by
    rw [List.count_eq_countP, List.countP_map]
    exact List.countP_congr fun y _ => by simp
  rw [← hcount]
  exact List.nodup_iff_count_le_one.mp hl (key x)

theorem place_of_first (hl : (l.map key).Nodup) (hx : x ∈ l) :
    (l.insertionSort (arranged before key fun id => if id = key x then 0 else 1))[
      firstPlace before l x]? = some x := by
  generalize htie : (fun id => if id = key x then 0 else 1 : ι → ℕ) = tie
  have hperm := List.perm_insertionSort (arranged before key tie) l
  obtain ⟨i, hi⟩ := List.mem_iff_getElem?.mp (hperm.mem_iff.mpr hx)
  obtain ⟨-, hlast⟩ := place_bounds (List.pairwise_insertionSort (arranged before key tie) l) hi
  obtain ⟨hfirst, -⟩ := place_bounds
    ((List.pairwise_insertionSort (arranged before key tie) l).imp fun h => h.1) hi
  rw [lastPlace, hperm.countP_eq] at hlast
  rw [firstPlace, hperm.countP_eq] at hfirst
  have hcount : l.countP (fun y => decide (arranged before key tie y x)) ≤
      firstPlace before l x + l.countP (fun y => decide (key y = key x)) := by
    refine countP_le_add fun y _ hy => ?_
    obtain ⟨hbefore, hties⟩ := of_decide_eq_true hy
    by_cases hback : before x y
    · have hle : tie (key y) ≤ tie (key x) := hties hback
      have hx0 : tie (key x) = 0 := by rw [← htie]; exact if_pos rfl
      by_cases hkey : key y = key x
      · exact .inr (decide_eq_true hkey)
      · have hy1 : tie (key y) = 1 := by rw [← htie]; exact if_neg hkey
        omega
    · exact .inl (decide_eq_true ⟨hbefore, hback⟩)
  have hone := countP_key_le (x := x) hl
  have hplace : i = firstPlace before l x := by
    unfold firstPlace at hcount ⊢
    omega
  rw [← hplace]
  exact hi

theorem place_of_last (hl : (l.map key).Nodup) (hx : x ∈ l) :
    (l.insertionSort (arranged before key fun id => if id = key x then 1 else 0))[
      lastPlace before l x]? = some x := by
  generalize htie : (fun id => if id = key x then 1 else 0 : ι → ℕ) = tie
  have hperm := List.perm_insertionSort (arranged before key tie) l
  obtain ⟨i, hi⟩ := List.mem_iff_getElem?.mp (hperm.mem_iff.mpr hx)
  obtain ⟨hfirst, -⟩ := place_bounds (List.pairwise_insertionSort (arranged before key tie) l) hi
  obtain ⟨-, hlast⟩ := place_bounds
    ((List.pairwise_insertionSort (arranged before key tie) l).imp fun h => h.1) hi
  rw [lastPlace, hperm.countP_eq] at hlast
  rw [firstPlace, hperm.countP_eq] at hfirst
  have hcount : l.countP (fun y => decide (before y x)) ≤
      l.countP (fun y => decide (arranged before key tie y x ∧ ¬ arranged before key tie x y)) +
        l.countP (fun y => decide (key y = key x)) := by
    refine countP_le_add fun y _ hy => ?_
    have hbefore : before y x := of_decide_eq_true hy
    by_cases hkey : key y = key x
    · exact .inr (decide_eq_true hkey)
    · have hy0 : tie (key y) = 0 := by rw [← htie]; exact if_neg hkey
      have hx1 : tie (key x) = 1 := by rw [← htie]; exact if_pos rfl
      refine .inl (decide_eq_true ⟨⟨hbefore, fun _ => ?_⟩, fun hback => ?_⟩)
      · change tie (key y) ≤ tie (key x)
        omega
      · have hle : tie (key x) ≤ tie (key y) := hback.2 hbefore
        omega
  have hone := countP_key_le (x := x) hl
  have hplace : i = lastPlace before l x := by
    unfold lastPlace
    omega
  rw [← hplace]
  exact hi

/--
Whatever order each page has for rows that are not told apart, the pages hold every row once:
that is so exactly if the places of every row are on one page.
-/
theorem allPages_perm_iff (hl : (l.map key).Nodup) (hsize : 0 < size) :
    (∀ tie, ((allPages before key tie size l).map key).Perm (l.map key)) ↔
      ∀ x ∈ l, firstPlace before l x / size = lastPlace before l x / size := by
  constructor
  · intro hperm x hx
    by_contra hne
    -- The row stands at its first place on one page and at its last place on another one.
    let tie : ℕ → ι → ℕ := fun page id =>
      if page = firstPlace before l x / size + 1 then (if id = key x then 0 else 1)
      else (if id = key x then 1 else 0)
    have hfirst : x ∈ orderPage (arranged before key (tie (firstPlace before l x / size + 1)))
        size (firstPlace before l x / size + 1) l := by
      rw [mem_orderPage hsize (Nat.succ_pos _)]
      refine ⟨_, ?_, rfl⟩
      have htie : tie (firstPlace before l x / size + 1) = fun id => if id = key x then 0 else 1 :=
        funext fun id => if_pos rfl
      rw [htie]
      exact place_of_first hl hx
    have hlast : x ∈ orderPage (arranged before key (tie (lastPlace before l x / size + 1)))
        size (lastPlace before l x / size + 1) l := by
      rw [mem_orderPage hsize (Nat.succ_pos _)]
      refine ⟨_, ?_, rfl⟩
      have htie : tie (lastPlace before l x / size + 1) = fun id => if id = key x then 1 else 0 :=
        funext fun id => if_neg (by omega)
      rw [htie]
      exact place_of_last hl hx
    have hnodup : (allPages before key tie size l).Nodup :=
      ((hperm tie).nodup_iff.mpr hl).of_map
    have hdisjoint := (List.nodup_flatMap.mp hnodup).2
    have hpages : firstPlace before l x / size + 1 ≠ lastPlace before l x / size + 1 :=
      fun heq => hne (Nat.succ_injective heq)
    have hsymm : Std.Symm (Function.onFun List.Disjoint fun page =>
        orderPage (arranged before key (tie page)) size page l) :=
        ⟨fun _ _ h _ hx hx' => h hx' hx⟩
    exact hdisjoint.forall (place_page hsize (firstPlace_lt hx))
      (place_page hsize (lastPlace_lt hx)) hpages hfirst hlast
  · intro hone tie
    exact (allPages_perm hl.of_map hsize hone).map key

end Pages

end Rows

end Minsight

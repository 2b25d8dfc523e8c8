import Mathlib.Data.List.Perm.Subperm
import Mathlib.Data.Nat.Notation
import Mathlib.Order.Lattice

/-! # Reading an ordered index page by page

A reader asks for the first items from a time on and strictly after the key it saw last, and
derives the next question from the last item of the answer. The key orders the items and the
time rises with it. What the reader takes for the time of the last item may be anything; the
pages are complete exactly when every page ends with an item after which the next one is shown.
-/

namespace Minsight

namespace Paging

variable {α τ κ : Type*} [LinearOrder τ] [LinearOrder κ]

structure Window (τ κ : Type*) where
  start : τ
  after : Option κ

section

variable (time : α → τ) (key : α → κ)

def Window.shows (w : Window τ κ) (a : α) : Bool :=
  decide (w.start ≤ time a) && w.after.all fun k => decide (k < key a)

def shown (index : List α) (w : Window τ κ) : List α := index.filter (w.shows time key)

/--
Page after page until one is not full. The reader fails when it cannot read the time of a last
item, and when it has no fuel left.
-/
def pages (index : List α) (b : ℕ) (next : ℕ → α → Option τ) :
    ℕ → ℕ → Window τ κ → Option (List α)
  | 0, _, _ => none
  | fuel + 1, n, w =>
    let page := (shown time key index w).take b
    match page.getLast? with
    | none => some []
    | some last =>
      match next n last with
      | none => none
      | some start =>
        if b ≤ page.length then
          (pages index b next fuel (n + 1) ⟨start, some (key last)⟩).map (page ++ ·)
        else some page

/-- Of the items to be shown, the last of each page has a time, and the next item is after it. -/
def Chained (b : ℕ) (next : ℕ → α → Option τ) (n : ℕ) (items : List α) : Prop :=
  ∀ i last, ((items.drop (i * b)).take b).getLast? = some last →
    ∃ start, next (n + i) last = some start ∧
      ∀ a, items[(i + 1) * b]? = some a → key last < key a ∧ start ≤ time a

end

variable {time : α → τ} {key : α → κ} {index items : List α} {b n fuel : ℕ}
  {next : ℕ → α → Option τ} {w : Window τ κ} {a : α}

theorem mem_shown :
    a ∈ shown time key index w ↔ a ∈ index ∧ w.start ≤ time a ∧ ∀ k, w.after = some k → k < key a := by
  simp only [shown, Window.shows, List.mem_filter, Bool.and_eq_true, decide_eq_true_eq,
    Option.all_eq_true]

theorem chained_nil : Chained time key b next n [] := by
  intro i last h
  simp at h

theorem chained_iff :
    Chained time key b next n items ↔
      (∀ last, (items.take b).getLast? = some last →
        ∃ start, next n last = some start ∧
          ∀ a, items[b]? = some a → key last < key a ∧ start ≤ time a) ∧
      Chained time key b next (n + 1) (items.drop b) := by
  constructor
  · intro h
    refine ⟨fun last hlast => ?_, fun i last hlast => ?_⟩
    · have := h 0 last
      simpa using this (by simpa using hlast)
    · have hdrop : (items.drop b).drop (i * b) = items.drop ((i + 1) * b) := by
        rw [List.drop_drop, Nat.succ_mul, Nat.add_comm]
      rw [hdrop] at hlast
      obtain ⟨start, hstart, hnext⟩ := h (i + 1) last hlast
      refine ⟨start, by rw [Nat.add_assoc, Nat.add_comm 1]; exact hstart, fun a ha => hnext a ?_⟩
      rw [List.getElem?_drop] at ha
      rw [Nat.succ_mul (i + 1), Nat.add_comm]
      exact ha
  · rintro ⟨hfirst, hrest⟩ i last hlast
    cases i with
    | zero => simpa using hfirst last (by simpa using hlast)
    | succ i =>
      have hdrop : (items.drop b).drop (i * b) = items.drop ((i + 1) * b) := by
        rw [List.drop_drop, Nat.succ_mul, Nat.add_comm]
      rw [← hdrop] at hlast
      obtain ⟨start, hstart, hnext⟩ := hrest i last hlast
      refine ⟨start, by rw [Nat.add_assoc, Nat.add_comm 1] at hstart; exact hstart, fun a ha => hnext a ?_⟩
      rw [List.getElem?_drop, Nat.add_comm b, ← Nat.succ_mul]
      exact ha

section

variable {last : α} (hlast : ((shown time key index w).take b).getLast? = some last)

include hlast

theorem pages_unread (h : next n last = none) :
    pages time key index b next (fuel + 1) n w = none := by
  simp only [pages, hlast, h]

theorem pages_short {start : τ} (h : next n last = some start)
    (hb : ((shown time key index w).take b).length < b) :
    pages time key index b next (fuel + 1) n w = some ((shown time key index w).take b) := by
  simp only [pages, hlast, h, if_neg (Nat.not_le.mpr hb)]

theorem pages_full {start : τ} (h : next n last = some start)
    (hb : b ≤ ((shown time key index w).take b).length) :
    pages time key index b next (fuel + 1) n w =
      (pages time key index b next fuel (n + 1) ⟨start, some (key last)⟩).map
        ((shown time key index w).take b ++ ·) := by
  simp only [pages, hlast, h, if_pos hb]

end

theorem pages_done (hlast : ((shown time key index w).take b).getLast? = none) :
    pages time key index b next (fuel + 1) n w = some [] := by
  simp only [pages, hlast]

section

variable (sorted : index.Pairwise (key · ≤ key ·)) (rises : ∀ a a', key a ≤ key a' → time a ≤ time a')

include sorted

theorem shown_sorted (w : Window τ κ) : (shown time key index w).Pairwise (key · ≤ key ·) :=
  sorted.sublist List.filter_sublist

theorem le_last {last : α} (h : ((shown time key index w).take b).getLast? = some last) :
    ∀ a ∈ (shown time key index w).take b, key a ≤ key last := by
  have hs : ((shown time key index w).take b).Pairwise (key · ≤ key ·) :=
    (shown_sorted sorted w).sublist (List.take_sublist _ _)
  obtain ⟨init, hinit⟩ := List.getLast?_eq_some_iff.mp h
  intro a ha
  rw [hinit] at hs ha
  rcases List.mem_append.mp ha with ha | ha
  · exact (List.pairwise_append.mp hs).2.2 a ha last (List.mem_singleton_self _)
  · rw [List.mem_singleton.mp ha]

/-- A page of the items to be shown ends before an item, or has one with its key. -/
theorem last_lt_or_mem (hb : 1 ≤ b) (ha : a ∈ shown time key index w) :
    ∃ last, ((shown time key index w).take b).getLast? = some last ∧
      (key last < key a ∨ ∃ a' ∈ (shown time key index w).take b, key a' = key a) := by
  have hne : (shown time key index w).take b ≠ [] := by
    rw [ne_eq, List.take_eq_nil_iff]
    rintro (h | h)
    · omega
    · rw [h] at ha
      exact List.not_mem_nil ha
  refine ⟨_, List.getLast?_eq_some_getLast hne, ?_⟩
  have hs : (shown time key index w).Pairwise (key · ≤ key ·) := shown_sorted sorted w
  rw [← List.take_append_drop b (shown time key index w)] at ha hs
  rcases List.mem_append.mp ha with ha | ha
  · exact .inr ⟨a, ha, rfl⟩
  · rcases lt_or_eq_of_le ((List.pairwise_append.mp hs).2.2 _ (List.getLast_mem hne) a ha) with h | h
    · exact .inl h
    · exact .inr ⟨_, List.getLast_mem hne, h⟩

include rises

theorem shown_after {last : α} {start : τ}
    (h : ((shown time key index w).take b).getLast? = some last) :
    shown time key index ⟨start, some (key last)⟩ =
      ((shown time key index w).drop b).filter
        (Window.shows time key ⟨start, some (key last)⟩) := by
  have hmem : last ∈ shown time key index w :=
    List.mem_of_mem_take (List.mem_of_getLast? h)
  obtain ⟨-, hstart, hafter⟩ := mem_shown.mp hmem
  have hwindow : shown time key index ⟨start, some (key last)⟩ =
      (shown time key index w).filter (Window.shows time key ⟨start, some (key last)⟩) := by
    rw [shown, shown, List.filter_filter]
    refine List.filter_congr fun a ha => Bool.eq_iff_iff.mpr ⟨fun hs => ?_, fun hs => ?_⟩
    · have hlt : key last < key a := by
        simpa only [Window.shows, Option.all_some, Bool.and_eq_true, decide_eq_true_eq] using
          (Bool.and_eq_true_iff.mp hs).2
      have hseen : a ∈ shown time key index w :=
        mem_shown.mpr ⟨ha, le_trans hstart (rises last a (le_of_lt hlt)),
          fun k hk => lt_trans (hafter k hk) hlt⟩
      exact Bool.and_eq_true_iff.mpr ⟨hs, (List.mem_filter.mp hseen).2⟩
    · exact (Bool.and_eq_true_iff.mp hs).1
  have hpage : ((shown time key index w).take b).filter
      (Window.shows time key ⟨start, some (key last)⟩) = [] := by
    refine List.filter_eq_nil_iff.mpr fun a ha hs => ?_
    have hlt : key last < key a := by
      simpa only [Window.shows, Option.all_some, Bool.and_eq_true, decide_eq_true_eq] using
        (Bool.and_eq_true_iff.mp hs).2
    exact absurd (le_last sorted h a ha) (not_le.mpr hlt)
  calc
    shown time key index ⟨start, some (key last)⟩
        = ((shown time key index w).take b ++ (shown time key index w).drop b).filter
            (Window.shows time key ⟨start, some (key last)⟩) := by
          rw [List.take_append_drop, hwindow]
    _ = _ := by rw [List.filter_append, hpage, List.nil_append]

/-- The rest is shown whole exactly when its first item is after the last one of the page. -/
theorem shown_after_iff {last : α} {start : τ}
    (h : ((shown time key index w).take b).getLast? = some last) :
    shown time key index ⟨start, some (key last)⟩ = (shown time key index w).drop b ↔
      ∀ a, (shown time key index w)[b]? = some a → key last < key a ∧ start ≤ time a := by
  have hs : ((shown time key index w).drop b).Pairwise (key · ≤ key ·) :=
    (shown_sorted sorted w).sublist (List.drop_sublist _ _)
  have hhead : (shown time key index w)[b]? = ((shown time key index w).drop b)[0]? := by
    rw [List.getElem?_drop, Nat.add_zero]
  rw [shown_after sorted rises h, List.filter_eq_self, hhead]
  cases hdrop : (shown time key index w).drop b with
  | nil => simp
  | cons a rest =>
    rw [hdrop] at hs
    constructor
    · intro hall a' ha'
      obtain rfl : a = a' := by simpa using ha'
      have := hall a List.mem_cons_self
      simpa [Window.shows, and_comm] using this
    · intro hfirst a' ha'
      obtain ⟨hkey, htime⟩ := hfirst a rfl
      have hle : key a ≤ key a' := by
        rcases List.mem_cons.mp ha' with rfl | ha'
        · exact le_rfl
        · exact (List.pairwise_cons.mp hs).1 a' ha'
      simp only [Window.shows, Option.all_some, Bool.and_eq_true, decide_eq_true_eq]
      exact ⟨le_trans htime (rises a a' hle), lt_of_lt_of_le hkey hle⟩

theorem pages_sublist :
    ∀ {fuel n : ℕ} {w : Window τ κ} {items : List α},
      pages time key index b next fuel n w = some items → items.Sublist (shown time key index w)
  | 0, _, _, _, h => by simp [pages] at h
  | fuel + 1, n, w, items, h => by
    cases hlast : ((shown time key index w).take b).getLast? with
    | none =>
      rw [pages_done hlast, Option.some.injEq] at h
      rw [← h]
      exact List.nil_sublist _
    | some last =>
      cases hnext : next n last with
      | none => simp [pages_unread hlast hnext] at h
      | some start =>
        rcases Nat.lt_or_ge ((shown time key index w).take b).length b with hb | hb
        · rw [pages_short hlast hnext hb, Option.some.injEq] at h
          rw [← h]
          exact List.take_sublist _ _
        · rw [pages_full hlast hnext hb] at h
          obtain ⟨rest, hrest, rfl⟩ := Option.map_eq_some_iff.mp h
          have hsub : rest.Sublist ((shown time key index w).drop b) := by
            have := pages_sublist hrest
            rw [shown_after sorted rises hlast] at this
            exact this.trans List.filter_sublist
          have := (List.Sublist.refl ((shown time key index w).take b)).append hsub
          rwa [List.take_append_drop] at this

/-- The pages are all there is to show exactly when the items are chained. -/
theorem pages_eq_shown_iff (hb : 1 ≤ b) :
    ∀ {fuel n : ℕ} {w : Window τ κ}, (shown time key index w).length < fuel →
      (pages time key index b next fuel n w = some (shown time key index w) ↔
        Chained time key b next n (shown time key index w))
  | 0, _, _, h => absurd h (Nat.not_lt_zero _)
  | fuel + 1, n, w, hfuel => by
    rw [chained_iff]
    cases hlast : ((shown time key index w).take b).getLast? with
    | none =>
      have hempty : shown time key index w = [] := by
        rcases List.take_eq_nil_iff.mp (List.getLast?_eq_none_iff.mp hlast) with h | h
        · omega
        · exact h
      simp [pages_done hlast, hempty, chained_nil]
    | some last =>
      cases hnext : next n last with
      | none => simp [pages_unread hlast hnext, hnext]
      | some start =>
        rcases Nat.lt_or_ge ((shown time key index w).take b).length b with hshort | hfull
        · rw [pages_short hlast hnext hshort]
          rw [List.length_take] at hshort
          have htake : (shown time key index w).take b = shown time key index w :=
            List.take_of_length_le (by omega)
          have hdrop : (shown time key index w).drop b = [] := List.drop_eq_nil_iff.mpr (by omega)
          have hnone : (shown time key index w)[b]? = none := List.getElem?_eq_none (by omega)
          simp [hnext, htake, hdrop, hnone, chained_nil]
        · have hafter : shown time key index ⟨start, some (key last)⟩ =
              (shown time key index w).drop b ↔ _ := shown_after_iff sorted rises hlast
          have hlength : ((shown time key index w).drop b).length < fuel := by
            rw [List.length_take] at hfull
            rw [List.length_drop]
            omega
          rw [pages_full hlast hnext hfull, Option.map_eq_some_iff]
          simp only [Option.some.injEq, forall_eq', hnext, exists_eq_left']
          rw [← hafter]
          constructor
          · rintro ⟨rest, hrest, heq⟩
            obtain rfl := List.append_cancel_left (heq.trans (List.take_append_drop b _).symm)
            -- what the pages hold is shown, and nothing else of the rest is
            have hwhole : shown time key index ⟨start, some (key last)⟩ =
                (shown time key index w).drop b := by
              refine List.Sublist.antisymm ?_ (pages_sublist sorted rises hrest)
              rw [shown_after sorted rises hlast]
              exact List.filter_sublist
            rw [← hwhole] at hlength hrest ⊢
            exact ⟨rfl, (pages_eq_shown_iff hb hlength).mp hrest⟩
          · rintro ⟨hwhole, hchained⟩
            rw [← hwhole] at hlength hchained
            refine ⟨_, (pages_eq_shown_iff hb hlength).mpr hchained, ?_⟩
            rw [hwhole, List.take_append_drop]

end

end Paging

end Minsight

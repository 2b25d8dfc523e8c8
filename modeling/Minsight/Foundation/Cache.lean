import Mathlib.Data.List.Basic
import Mathlib.Logic.Function.Basic

/-! # Answers kept in a cache

A query whose slot is filled is answered from it; otherwise it is answered afresh, and the answer is
kept. The cache is transparent exactly if a slot is only read by queries with the answer of the
query that filled it.
-/

namespace Minsight

/-- Queries with their answers and the slots these are kept in. A query may have no slot, and the
cache may fail to read or to write. -/
structure Cached (κ χ ω : Type) where
  slot : κ → Option χ
  answer : κ → ω
  reads : κ → Bool
  writes : κ → Bool

namespace Cached

variable {κ χ ω : Type} (C : Cached κ χ ω)

def find (store : χ → Option ω) (q : κ) : Option ω :=
  if C.reads q then (C.slot q).bind store else none

def reply (store : χ → Option ω) (q : κ) : ω := (C.find store q).getD (C.answer q)

/-- The cache that keeps the queries themselves: it tells which query filled a slot. -/
def queries : Cached κ χ κ := { C with answer := id }

variable [DecidableEq χ]

def keep (store : χ → Option ω) (q : κ) : χ → Option ω :=
  match C.slot q with
  | none => store
  | some s =>
    if (C.find store q).isNone && C.writes q then Function.update store s (some (C.answer q))
    else store

/-- The cache after these queries. -/
def after (qs : List κ) : χ → Option ω := qs.foldl C.keep fun _ => none

def Transparent (qs : List κ) : Prop :=
  ∀ pre q post, qs = pre ++ q :: post → C.reply (C.after pre) q = C.answer q

variable {C}

omit [DecidableEq χ] in
/-- What the cache has for a query is the answer of the query that filled the slot. -/
theorem find_map (fillers : χ → Option κ) (q : κ) :
    C.find (fun s => (fillers s).map C.answer) q = (C.queries.find fillers q).map C.answer := by
  unfold find queries
  split
  · cases C.slot q with
    | none => rfl
    | some s => rfl
  · rfl

theorem keep_map (fillers : χ → Option κ) (q : κ) :
    C.keep (fun s => (fillers s).map C.answer) q =
      fun s => (C.queries.keep fillers q s).map C.answer := by
  have hslot : C.queries.slot q = C.slot q := rfl
  have hwrites : C.queries.writes q = C.writes q := rfl
  rw [keep, keep, find_map, Option.isNone_map, hslot, hwrites]
  cases C.slot q with
  | none => rfl
  | some s =>
    dsimp only
    split
    · funext t
      by_cases ht : t = s
      · subst ht
        rw [Function.update_self, Function.update_self]
        rfl
      · rw [Function.update_of_ne ht, Function.update_of_ne ht]
    · rfl

theorem after_eq (qs : List κ) : C.after qs = fun s => (C.queries.after qs s).map C.answer := by
  have hfold (fillers : χ → Option κ) :
      qs.foldl C.keep (fun s => (fillers s).map C.answer) =
        fun s => (qs.foldl C.queries.keep fillers s).map C.answer := by
    induction qs generalizing fillers with
    | nil => rfl
    | cons q qs ih => rw [List.foldl_cons, List.foldl_cons, keep_map, ih]
  exact hfold fun _ => none

theorem filler_of_after {qs : List κ} {s : χ} {q : κ} (h : C.queries.after qs s = some q) :
    q ∈ qs ∧ C.slot q = some s := by
  have hfold (fillers : χ → Option κ) (all : List κ)
      (hfillers : ∀ s q, fillers s = some q → q ∈ all ∧ C.slot q = some s) (hsub : qs ⊆ all) :
      ∀ s q, qs.foldl C.queries.keep fillers s = some q → q ∈ all ∧ C.slot q = some s := by
    clear h
    induction qs generalizing fillers with
    | nil => exact hfillers
    | cons q qs ih =>
      obtain ⟨hq, hqs⟩ := List.cons_subset.mp hsub
      refine ih _ (fun s q' hkeep => ?_) hqs
      unfold keep at hkeep
      have hslot : C.queries.slot q = C.slot q := rfl
      rw [hslot] at hkeep
      cases hs : C.slot q with
      | none =>
        rw [hs] at hkeep
        exact hfillers s q' hkeep
      | some t =>
        rw [hs] at hkeep
        dsimp only at hkeep
        split at hkeep
        · by_cases ht : s = t
          · subst ht
            rw [Function.update_self] at hkeep
            obtain rfl : q = q' := Option.some.inj hkeep
            exact ⟨hq, hs⟩
          · rw [Function.update_of_ne ht] at hkeep
            exact hfillers s q' hkeep
        · exact hfillers s q' hkeep
  exact hfold (fun _ => none) qs (fun _ _ h => absurd h (by simp)) (List.Subset.refl _) s q h

theorem filler_of_find {qs : List κ} {q q₀ : κ}
    (h : C.queries.find (C.queries.after qs) q = some q₀) :
    q₀ ∈ qs ∧ C.reads q = true ∧ ∃ s, C.slot q = some s ∧ C.slot q₀ = some s := by
  unfold find at h
  split at h
  · rename_i hreads
    obtain ⟨s, hs, hfill⟩ := Option.bind_eq_some_iff.mp h
    obtain ⟨hmem, hslot⟩ := filler_of_after hfill
    exact ⟨hmem, hreads, s, hs, hslot⟩
  · cases h

theorem find_after_singleton {q₀ q : κ} {s : χ} (hslot₀ : C.slot q₀ = some s)
    (hwrites : C.writes q₀ = true) (hslot : C.slot q = some s) (hreads : C.reads q = true) :
    C.queries.find (C.queries.after [q₀]) q = some q₀ := by
  have hempty : C.queries.find (fun _ => none) q₀ = none := by
    unfold find
    split
    · rw [Option.bind_eq_none_iff]
      exact fun _ _ => rfl
    · rfl
  have hfilled : C.queries.after [q₀] s = some q₀ := by
    rw [after, List.foldl_cons, List.foldl_nil, keep, hempty]
    simp [queries, hslot₀, hwrites]
  have hslot' : C.queries.slot q = some s := hslot
  have hreads' : C.queries.reads q = true := hreads
  rw [find, if_pos hreads', hslot', Option.bind_some, hfilled]

theorem reply_after (qs : List κ) (q : κ) :
    C.reply (C.after qs) q =
      ((C.queries.find (C.queries.after qs) q).map C.answer).getD (C.answer q) := by
  rw [reply, after_eq, find_map]

/-- The cache is transparent exactly if what a query finds was filled by one with its answer. -/
theorem transparent_iff (qs : List κ) :
    C.Transparent qs ↔ ∀ pre q post, qs = pre ++ q :: post →
      ∀ q₀, C.queries.find (C.queries.after pre) q = some q₀ → C.answer q₀ = C.answer q := by
  constructor
  · intro h pre q post hqs q₀ hfind
    have hreply := h pre q post hqs
    rw [reply_after, hfind] at hreply
    exact hreply
  · intro h pre q post hqs
    rw [reply_after]
    cases hfind : C.queries.find (C.queries.after pre) q with
    | none => rfl
    | some q₀ => exact h pre q post hqs q₀ hfind

end Cached

end Minsight

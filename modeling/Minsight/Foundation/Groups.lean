import Mathlib.Data.List.Induction
import Mathlib.Data.List.Nodup

/-! # Groups of a list

A loop that fills a dictionary: an element is added to the group of its key, and the first element
of a key starts the group. The group of a key is then a function of the elements of that key alone.
-/

namespace Minsight

section

variable {α β κ : Type*} [DecidableEq κ] (key : α → Option κ) (start : α → β) (add : β → α → β)

/-- One element added to the group of its key; an element without a key is left out. -/
def addToGroup (dict : List (κ × β)) (a : α) : List (κ × β) :=
  match key a with
  | none => dict
  | some k =>
    if k ∈ dict.map Prod.fst then dict.map fun g => if g.1 = k then (k, add g.2 a) else g
    else dict ++ [(k, add (start a) a)]

def groups (l : List α) : List (κ × β) := l.foldl (addToGroup key start add) []

def ofKey (l : List α) (k : κ) : List α := l.filter (key · = some k)

def foldGroup : List α → Option β
  | [] => none
  | a :: rest => some ((a :: rest).foldl add (start a))

variable {key start add} {l : List α} {a : α} {k : κ} {b : β}

theorem groups_concat : groups key start add (l ++ [a]) =
    addToGroup key start add (groups key start add l) a := by
  rw [groups, List.foldl_append]
  rfl

theorem ofKey_concat (h : key a = some k) : ofKey key (l ++ [a]) k = ofKey key l k ++ [a] := by
  rw [ofKey, List.filter_append, List.filter_singleton, decide_eq_true h]
  rfl

theorem ofKey_concat_of_ne (h : key a ≠ some k) : ofKey key (l ++ [a]) k = ofKey key l k := by
  rw [ofKey, List.filter_append, List.filter_singleton, decide_eq_false h]
  exact List.append_nil _

theorem foldGroup_concat : foldGroup start add (l ++ [a]) =
    some (add ((foldGroup start add l).getD (start a)) a) := by
  cases l with
  | nil => rfl
  | cons c l => rw [List.cons_append, foldGroup, ← List.cons_append, List.foldl_append]; rfl

theorem foldGroup_eq_none : foldGroup start add l = none ↔ l = [] := by
  cases l with
  | nil => exact iff_of_true rfl rfl
  | cons a l => exact iff_of_false nofun (List.cons_ne_nil a l)

theorem keys_addToGroup (dict : List (κ × β)) (h : key a = some k) :
    (addToGroup key start add dict a).map Prod.fst =
      if k ∈ dict.map Prod.fst then dict.map Prod.fst else dict.map Prod.fst ++ [k] := by
  simp only [addToGroup, h]
  split
  · rw [List.map_map]
    apply List.map_congr_left
    intro g _
    by_cases hg : g.1 = k <;> simp [hg]
  · rw [List.map_append, List.map_singleton]

theorem groups_nodup (l : List α) : ((groups key start add l).map Prod.fst).Nodup := by
  induction l using List.reverseRecOn with
  | nil => exact List.nodup_nil
  | append_singleton l a ih =>
    rw [groups_concat]
    cases h : key a with
    | none =>
      simp only [addToGroup, h]
      exact ih
    | some k =>
      rw [keys_addToGroup _ h]
      split
      · exact ih
      · rename_i hnew
        exact List.nodup_append.mpr ⟨ih, List.nodup_singleton k, fun x hx y hy => by
          rintro rfl
          exact hnew (List.mem_singleton.mp hy ▸ hx)⟩

theorem mem_addToGroup_of_ne (dict : List (κ × β)) (h : key a ≠ some k) :
    (k, b) ∈ addToGroup key start add dict a ↔ (k, b) ∈ dict := by
  unfold addToGroup
  split
  · rfl
  · rename_i k' hk'
    have hne : k ≠ k' := by
      rintro rfl
      exact h hk'
    split
    · constructor
      · intro hmem
        obtain ⟨g, hg, heq⟩ := List.mem_map.mp hmem
        split at heq
        · exact absurd (congrArg Prod.fst heq).symm hne
        · exact heq ▸ hg
      · intro hmem
        exact List.mem_map.mpr ⟨(k, b), hmem, if_neg hne⟩
    · simp [hne]

theorem mem_addToGroup_of_mem {dict : List (κ × β)} {b₀ : β} (h : key a = some k)
    (hmem : (k, b₀) ∈ dict) (hone : ∀ b', (k, b') ∈ dict → b' = b₀) :
    (k, b) ∈ addToGroup key start add dict a ↔ b = add b₀ a := by
  simp only [addToGroup, h]
  rw [if_pos (List.mem_map_of_mem hmem)]
  constructor
  · intro hb
    obtain ⟨⟨k', b'⟩, hg, heq⟩ := List.mem_map.mp hb
    split at heq
    · rename_i hk
      obtain rfl : k' = k := hk
      rw [hone b' hg] at heq
      exact (congrArg Prod.snd heq).symm
    · rename_i hk
      exact absurd (congrArg Prod.fst heq) hk
  · rintro rfl
    exact List.mem_map.mpr ⟨_, hmem, if_pos rfl⟩

theorem mem_addToGroup_of_notMem {dict : List (κ × β)} (h : key a = some k)
    (hnew : k ∉ dict.map Prod.fst) :
    (k, b) ∈ addToGroup key start add dict a ↔ b = add (start a) a := by
  simp only [addToGroup, h]
  rw [if_neg hnew, List.mem_append, List.mem_singleton, Prod.mk.injEq]
  constructor
  · rintro (hb | ⟨-, rfl⟩)
    · exact absurd (List.mem_map_of_mem hb) hnew
    · rfl
  · rintro rfl
    exact .inr ⟨rfl, rfl⟩

theorem mem_groups :
    (k, b) ∈ groups key start add l ↔ foldGroup start add (ofKey key l k) = some b := by
  induction l using List.reverseRecOn generalizing b with
  | nil => exact iff_of_false List.not_mem_nil nofun
  | append_singleton l a ih =>
    rw [groups_concat]
    by_cases h : key a = some k
    · rw [ofKey_concat h, foldGroup_concat]
      cases hgroup : foldGroup start add (ofKey key l k) with
      | none =>
        have hnew : k ∉ (groups key start add l).map Prod.fst := by
          intro hmem
          obtain ⟨⟨k', b'⟩, hb', rfl⟩ := List.mem_map.mp hmem
          rw [ih.mp hb'] at hgroup
          cases hgroup
        rw [mem_addToGroup_of_notMem h hnew, Option.getD_none, Option.some_inj, eq_comm]
      | some b₀ =>
        have hone : ∀ b', (k, b') ∈ groups key start add l → b' = b₀ := by
          intro b' hb'
          rw [ih.mp hb'] at hgroup
          exact Option.some.inj hgroup
        rw [mem_addToGroup_of_mem h (ih.mpr hgroup) hone, Option.getD_some, Option.some_inj,
          eq_comm]
    · rw [mem_addToGroup_of_ne _ h, ofKey_concat_of_ne h]
      exact ih

end

end Minsight

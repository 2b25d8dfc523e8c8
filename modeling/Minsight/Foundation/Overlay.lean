import Mathlib.Data.List.Nodup
import Mathlib.Data.List.Infix

/-! # Keyed rows under upserts

An upsert writes over the row of its key, or adds a row. After many of them each key has the last
row that was written for it, and the rows of the other keys are as they were.
-/

namespace Minsight

namespace Overlay

variable {β κ : Type} [DecidableEq κ] (key : β → κ)

def put (b : β) : List β → List β
  | [] => [b]
  | a :: rows => if key a = key b then b :: rows else a :: put b rows

def overlay (rows bs : List β) : List β := bs.foldl (fun rows b => put key b rows) rows

def find (k : κ) (rows : List β) : Option β := rows.find? fun b => key b = k

/-- The last row of a key among those that are put. -/
def last (k : κ) (bs : List β) : Option β := find key k bs.reverse

/-- The new rows are the old ones, in their places, under the last row of each key. -/
structure Overlaid (rows bs rows' : List β) : Prop where
  unique : (rows'.map key).Nodup
  places : rows.map key <+: rows'.map key
  find : ∀ k, find key k rows' = (last key k bs).or (find key k rows)

variable {key} {rows rows' bs : List β} {b : β} {k : κ} {i : ℕ}

theorem put_of_notMem (h : key b ∉ rows.map key) : put key b rows = rows ++ [b] := by
  induction rows with
  | nil => rfl
  | cons a rows ih =>
    rw [List.map_cons, List.mem_cons, not_or] at h
    rw [put, if_neg (Ne.symm h.1), ih h.2, List.cons_append]

theorem put_of_getElem? {a : β} (hunique : (rows.map key).Nodup) (ha : rows[i]? = some a)
    (hkey : key a = key b) : put key b rows = rows.modify i fun _ => b := by
  induction rows generalizing i with
  | nil => cases ha
  | cons a' rows ih =>
    rw [List.map_cons, List.nodup_cons] at hunique
    cases i with
    | zero =>
      obtain rfl := Option.some.inj ha
      rw [put, if_pos hkey, List.modify_zero_cons]
    | succ i =>
      have ha : rows[i]? = some a := ha
      have hne : key a' ≠ key b := by
        intro heq
        exact hunique.1 (heq.trans hkey.symm ▸ List.mem_map_of_mem (List.mem_of_getElem? ha))
      rw [put, if_neg hne, ih hunique.2 ha, List.modify_succ_cons]

theorem keys_put (b : β) (rows : List β) : (put key b rows).map key =
    if key b ∈ rows.map key then rows.map key else rows.map key ++ [key b] := by
  induction rows with
  | nil => rfl
  | cons a rows ih =>
    rw [put]
    split
    · rename_i heq
      rw [List.map_cons, List.map_cons, heq, if_pos List.mem_cons_self]
    · rename_i hne
      have hmem : key b ∈ (a :: rows).map key ↔ key b ∈ rows.map key := by
        rw [List.map_cons, List.mem_cons, or_iff_right (Ne.symm hne)]
      rw [List.map_cons, ih]
      by_cases hin : key b ∈ rows.map key
      · rw [if_pos hin, if_pos (hmem.mpr hin), List.map_cons]
      · rw [if_neg hin, if_neg (fun h => hin (hmem.mp h)), List.map_cons, List.cons_append]

theorem keys_prefix_put (b : β) (rows : List β) : rows.map key <+: (put key b rows).map key := by
  rw [keys_put]
  split
  · exact List.prefix_rfl
  · exact List.prefix_append _ _

theorem mem_keys_put (b : β) (rows : List β) : key b ∈ (put key b rows).map key := by
  rw [keys_put]
  split
  · assumption
  · exact List.mem_append_right _ (List.mem_singleton_self _)

theorem nodup_put (h : (rows.map key).Nodup) (b : β) : ((put key b rows).map key).Nodup := by
  rw [keys_put]
  split
  · exact h
  · rename_i hnot
    refine List.nodup_append.mpr ⟨h, List.nodup_singleton _, ?_⟩
    rintro k hk _ hk' rfl
    exact hnot (List.mem_singleton.mp hk' ▸ hk)

theorem find_put (k : κ) (b : β) (rows : List β) :
    find key k (put key b rows) = if key b = k then some b else find key k rows := by
  induction rows with
  | nil =>
    rw [put, find, List.find?_cons]
    by_cases hk : key b = k <;> simp [hk, find]
  | cons a rows ih =>
    rw [put]
    split
    · rename_i heq
      by_cases hk : key b = k <;> simp [find, heq, hk]
    · rename_i hne
      by_cases ha : key a = k
      · have hk : key b ≠ k := fun hk => hne (ha.trans hk.symm)
        simp [find, ha, hk]
      · have htail : find key k (a :: put key b rows) = find key k (put key b rows) := by
          simp [find, ha]
        have htail' : find key k (a :: rows) = find key k rows := by
          simp [find, ha]
        rw [htail, htail', ih]

theorem keys_prefix_overlay (rows bs : List β) :
    rows.map key <+: (overlay key rows bs).map key := by
  induction bs generalizing rows with
  | nil => exact List.prefix_rfl
  | cons b bs ih => exact (keys_prefix_put b rows).trans (ih (put key b rows))

theorem nodup_overlay (h : (rows.map key).Nodup) (bs : List β) :
    ((overlay key rows bs).map key).Nodup := by
  induction bs generalizing rows with
  | nil => exact h
  | cons b bs ih => exact ih (nodup_put h b)

theorem mem_keys_overlay (hb : b ∈ bs) (rows : List β) :
    key b ∈ (overlay key rows bs).map key := by
  induction bs generalizing rows with
  | nil => exact absurd hb List.not_mem_nil
  | cons b' bs ih =>
    rcases List.mem_cons.mp hb with rfl | hb
    · exact (keys_prefix_overlay _ bs).subset (mem_keys_put b rows)
    · exact ih hb _

theorem overlay_append (rows bs cs : List β) :
    overlay key rows (bs ++ cs) = overlay key (overlay key rows bs) cs := List.foldl_append

theorem find_overlay (k : κ) (rows bs : List β) :
    find key k (overlay key rows bs) = (last key k bs).or (find key k rows) := by
  induction bs using List.reverseRecOn with
  | nil => rfl
  | append_singleton bs b ih =>
    have hlast : last key k (bs ++ [b]) = if key b = k then some b else last key k bs := by
      rw [last, List.reverse_append, List.reverse_singleton, List.singleton_append, find,
        List.find?_cons]
      by_cases hk : key b = k <;> simp [hk, last, find]
    have hput : overlay key rows (bs ++ [b]) = put key b (overlay key rows bs) :=
      overlay_append rows bs [b]
    rw [hput, find_put, hlast, ih]
    split <;> rfl

theorem put_of_mem (hunique : (rows.map key).Nodup) (hb : b ∈ rows) : put key b rows = rows := by
  obtain ⟨i, hi⟩ := List.mem_iff_getElem?.mp hb
  rw [put_of_getElem? hunique hi rfl]
  refine List.ext_getElem? fun j => ?_
  rw [List.getElem?_modify]
  split
  · rename_i hij
    rw [← hij, hi]
    rfl
  · exact congrFun Option.map_id _

theorem overlay_of_subset (hunique : (rows.map key).Nodup) (h : bs ⊆ rows) :
    overlay key rows bs = rows := by
  induction bs with
  | nil => rfl
  | cons b bs ih =>
    rw [List.cons_subset] at h
    change overlay key (put key b rows) bs = rows
    rw [put_of_mem hunique h.1]
    exact ih h.2

theorem overlaid_overlay (h : (rows.map key).Nodup) (bs : List β) :
    Overlaid key rows bs (overlay key rows bs) where
  unique := nodup_overlay h bs
  places := keys_prefix_overlay rows bs
  find k := find_overlay k rows bs

theorem keys_overlay_of_mem (h : ∀ b ∈ bs, key b ∈ rows.map key) :
    (overlay key rows bs).map key = rows.map key := by
  induction bs generalizing rows with
  | nil => rfl
  | cons b bs ih =>
    have hkeys : (put key b rows).map key = rows.map key := by
      rw [keys_put, if_pos (h b List.mem_cons_self)]
    have hrest : ∀ b' ∈ bs, key b' ∈ (put key b rows).map key := by
      rw [hkeys]
      exact fun b' hb' => h b' (List.mem_cons_of_mem _ hb')
    exact (ih hrest).trans hkeys

theorem find_of_mem (hunique : (rows.map key).Nodup) (hb : b ∈ rows) :
    find key (key b) rows = some b := by
  induction rows with
  | nil => exact absurd hb List.not_mem_nil
  | cons a rows ih =>
    rw [List.map_cons, List.nodup_cons] at hunique
    rcases List.mem_cons.mp hb with rfl | hb
    · simp [find]
    · have hne : key a ≠ key b := fun heq => hunique.1 (heq ▸ List.mem_map_of_mem hb)
      have htail : find key (key b) (a :: rows) = find key (key b) rows := by
        simp [find, hne]
      rw [htail, ih hunique.2 hb]

/-- Rows with unique keys are known by the places of their keys and the row of each key. -/
theorem ext_of_find (hkeys : rows.map key = rows'.map key) (hunique : (rows.map key).Nodup)
    (hfind : ∀ k, find key k rows = find key k rows') : rows = rows' := by
  apply List.ext_getElem?
  intro i
  have hat := congrArg (·[i]?) hkeys
  simp only [List.getElem?_map] at hat
  rcases hrow : rows[i]? with _ | a <;> rcases hrow' : rows'[i]? with _ | a'
  · rfl
  · rw [hrow, hrow'] at hat
    cases hat
  · rw [hrow, hrow'] at hat
    cases hat
  · rw [hrow, hrow'] at hat
    have hk : key a = key a' := Option.some.inj hat
    have ha := find_of_mem hunique (List.mem_of_getElem? hrow)
    have ha' := find_of_mem (hkeys ▸ hunique) (List.mem_of_getElem? hrow')
    rw [hfind, hk, ha'] at ha
    exact ha.symm

theorem overlay_overlay (h : (rows.map key).Nodup) (bs : List β) :
    overlay key (overlay key rows bs) bs = overlay key rows bs := by
  have hkeys : (overlay key (overlay key rows bs) bs).map key = (overlay key rows bs).map key :=
    keys_overlay_of_mem fun b hb => mem_keys_overlay hb rows
  refine ext_of_find hkeys (nodup_overlay (nodup_overlay h bs) bs) fun k => ?_
  rw [find_overlay, find_overlay]
  cases last key k bs <;> rfl

end Overlay

end Minsight

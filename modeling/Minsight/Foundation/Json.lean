import Mathlib.Data.List.Basic
import Mathlib.Data.Rat.Defs

/-! # JSON values as a dynamically typed program sees them -/

namespace Minsight

/-- A decoded JSON value. An object keeps its keys in insertion order. -/
inductive Json
  | null
  | bool (b : Bool)
  | int (n : ℤ)
  | float (q : ℚ)
  | str (s : String)
  | arr (items : List Json)
  | obj (fields : List (String × Json))

namespace Json

/-- The truth value of a JSON value: empty and zero values are false. -/
def truthy : Json → Bool
  | null => false
  | bool b => b
  | int n => n ≠ 0
  | float q => q ≠ 0
  | str s => s ≠ ""
  | arr items => !items.isEmpty
  | obj fields => !fields.isEmpty

def orNull : Option String → Json
  | some s => str s
  | none => null

/-- `d.get(key)` on an object; `none` when the key is missing. -/
def get? : Json → String → Option Json
  | obj fields, key => fields.lookup key
  | _, _ => none

def isObj : Json → Bool
  | obj _ => true
  | _ => false

def asObj? : Json → Option Json
  | obj fields => some (obj fields)
  | _ => none

def asStr? : Json → Option String
  | str s => some s
  | _ => none

def number? : Json → Option ℚ
  | bool b => some (if b then 1 else 0)
  | int n => some n
  | float q => some q
  | _ => none

mutual

/-- `a == b` -/
def same : Json → Json → Bool
  | null, null => true
  | str s, str t => s == t
  | arr xs, arr ys => sameItems xs ys
  | obj fs, obj gs => fs.length == gs.length && sameFields fs gs
  | a, b => a.number?.any fun q => b.number? == some q

def sameItems : List Json → List Json → Bool
  | [], [] => true
  | x :: xs, y :: ys => same x y && sameItems xs ys
  | _, _ => false

/-- Every field is one of the other fields, in whatever order those are. -/
def sameFields : List (String × Json) → List (String × Json) → Bool
  | [], _ => true
  | f :: fs, gs => sameField f gs && sameFields fs gs

def sameField : String × Json → List (String × Json) → Bool
  | (key, value), gs =>
    match gs.lookup key with
    | some other => same value other
    | none => false

end

attribute [local simp] same sameItems sameFields sameField

variable {a : Json} {fs gs : List (String × Json)} {key : String} {value : Json}

theorem same_null (h : a.same null = true) : a = null := by
  cases a <;> simp [same, number?] at h ⊢

theorem same_str {s : String} (h : a.same (str s) = true) : a = str s := by
  cases a <;> simp [same, number?] at h ⊢
  exact h

theorem same_obj (h : a.same (obj gs) = true) :
    ∃ fs, a = obj fs ∧ fs.length = gs.length := by
  cases a with
  | obj fs =>
    rw [same, Bool.and_eq_true, beq_iff_eq] at h
    exact ⟨fs, rfl, h.1⟩
  | _ => simp [same, number?] at h

theorem same_get (h : (obj fs).same (obj gs) = true) (hkey : fs.lookup key = some value) :
    ∃ other, gs.lookup key = some other ∧ value.same other = true := by
  rw [same, Bool.and_eq_true] at h
  replace h := h.2
  induction fs with
  | nil => cases hkey
  | cons f fs ih =>
    obtain ⟨k, v⟩ := f
    rw [sameFields, Bool.and_eq_true] at h
    rw [List.lookup_cons] at hkey
    split at hkey
    · rename_i hk
      obtain rfl := Option.some.inj hkey
      obtain rfl := beq_iff_eq.mp hk
      have hfield := h.1
      rw [sameField] at hfield
      split at hfield
      · rename_i other hother
        exact ⟨other, hother, hfield⟩
      · cases hfield
    · exact ih hkey h.2

end Json

def setField (fields : List (String × Json)) (key : String) (value : Json) :
    List (String × Json) :=
  if fields.any fun f => f.1 == key then
    fields.map fun f => if f.1 = key then (key, value) else f
  else fields ++ [(key, value)]

theorem lookup_setField_self (fields : List (String × Json)) (key : String) (value : Json) :
    (setField fields key value).lookup key = some value := by
  unfold setField
  split
  · rename_i hany
    induction fields with
    | nil => simp at hany
    | cons f fields ih =>
      obtain ⟨k, v⟩ := f
      by_cases hk : k = key
      · simp [hk]
      · have hne : (key == k) = false := by simpa using Ne.symm hk
        rw [List.map_cons, if_neg hk, List.lookup_cons, hne]
        exact ih (by simpa [hk] using hany)
  · rename_i hany
    have hnone : fields.lookup key = none := by
      refine List.lookup_eq_none_iff.mpr fun f hf => ?_
      rw [bne_iff_ne]
      rintro rfl
      exact hany (List.any_eq_true.mpr ⟨f, hf, beq_self_eq_true _⟩)
    rw [List.lookup_append, hnone, List.lookup_cons, beq_self_eq_true]
    rfl

theorem lookup_setField_ne {key key' : String} (fields : List (String × Json)) (value : Json)
    (h : key' ≠ key) : (setField fields key value).lookup key' = fields.lookup key' := by
  have hne : (key' == key) = false := by simpa using h
  unfold setField
  split
  · rename_i hany
    clear hany
    induction fields with
    | nil => rfl
    | cons f fields ih =>
      obtain ⟨k, v⟩ := f
      rw [List.map_cons, List.lookup_cons]
      by_cases hk : k = key
      · subst hk
        rw [if_pos rfl, List.lookup_cons, hne, ih]
      · rw [if_neg hk, List.lookup_cons, ih]
  · rw [List.lookup_append, List.lookup_cons, hne, List.lookup_nil, Option.or_none]

/-- `a or b` on an optional text: an empty text counts as missing. -/
def orText (a : Option String) (b : String) : String :=
  match a with
  | some s => if s = "" then b else s
  | none => b

def truthyText (a : Option String) : Option String := a.filter (· ≠ "")

end Minsight

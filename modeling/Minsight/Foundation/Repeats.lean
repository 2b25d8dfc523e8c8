import Mathlib.Data.List.Chain
import Mathlib.Data.List.Induction

/-! # Repeats within a window

An arrival within a window of the last opening repeats it; any other arrival is the next opening.
What an observer notes of the arrivals determines the opening and its repeats.
-/

namespace Minsight

section

variable (ι τ : Type*)

/-- An arrival as it is noted. -/
structure Arrival where
  key : ι
  time : τ
  repeated : Bool

/-- The arrival that the current window started with, and how often it was repeated. -/
structure Opening where
  key : ι
  since : τ
  repeats : ℕ

end

variable {ι τ : Type*}

def openings (log : List (Arrival ι τ)) : List (Arrival ι τ) := log.filter fun a => !a.repeated

def lastOpening (log : List (Arrival ι τ)) : Option (Arrival ι τ) := (openings log).getLast?

def repeatsSince (log : List (Arrival ι τ)) : ℕ := (log.reverse.takeWhile (·.repeated)).length

def openingOf (log : List (Arrival ι τ)) : Option (Opening ι τ) :=
  (lastOpening log).map fun a => { key := a.key, since := a.time, repeats := repeatsSince log }

section

variable [LE τ] [Add τ] (width : τ)

/-- What can be noted of a list of arrivals, and the opening it ends with. -/
inductive Repeats : List (Arrival ι τ) → Option (Opening ι τ) → Prop
  | nil : Repeats [] none
  | opened {log o} {x : ι} {t : τ} (h : Repeats log o)
      (hout : ∀ p, o = some p → ¬ t ≤ p.since + width) :
      Repeats (log ++ [⟨x, t, false⟩]) (some ⟨x, t, 0⟩)
  | repeated {log p} {x : ι} {t : τ} (h : Repeats log (some p)) (hin : t ≤ p.since + width) :
      Repeats (log ++ [⟨x, t, true⟩]) (some { p with repeats := p.repeats + 1 })

end

section

variable {log : List (Arrival ι τ)} {x : ι} {t : τ}

@[simp] theorem openings_nil : openings ([] : List (Arrival ι τ)) = [] := rfl

@[simp] theorem openings_opened :
    openings (log ++ [⟨x, t, false⟩]) = openings log ++ [⟨x, t, false⟩] := by
  simp [openings]

@[simp] theorem openings_repeated : openings (log ++ [⟨x, t, true⟩]) = openings log := by
  simp [openings]

theorem mem_of_lastOpening {a : Arrival ι τ} (h : lastOpening log = some a) : a ∈ log :=
  (List.mem_filter.mp (List.mem_of_getLast? h)).1

theorem openingOf_opened : openingOf (log ++ [⟨x, t, false⟩]) = some ⟨x, t, 0⟩ := by
  simp [openingOf, lastOpening, repeatsSince]

theorem openingOf_repeated {p : Opening ι τ} (h : openingOf log = some p) :
    openingOf (log ++ [⟨x, t, true⟩]) = some { p with repeats := p.repeats + 1 } := by
  obtain ⟨a, ha, rfl⟩ := Option.map_eq_some_iff.mp h
  have hlast : lastOpening (log ++ [⟨x, t, true⟩]) = some a := by
    rw [lastOpening, openings_repeated]
    exact ha
  simp [openingOf, hlast, repeatsSince]

end

namespace Repeats

variable [LE τ] [Add τ] {width : τ} {log before after : List (Arrival ι τ)} {e : Arrival ι τ}
  {o : Option (Opening ι τ)}

theorem opening (h : Repeats width log o) : openingOf log = o := by
  induction h with
  | nil => rfl
  | opened h hout ih => exact openingOf_opened
  | repeated h hin ih => exact openingOf_repeated ih

theorem lastOpening_eq (h : Repeats width log o) {a : Arrival ι τ} (ha : lastOpening log = some a) :
    ∃ p, o = some p ∧ p.since = a.time := by
  rw [← h.opening, openingOf, ha]
  exact ⟨_, rfl, rfl⟩

theorem exists_lastOpening {p : Opening ι τ} (h : Repeats width log (some p)) :
    ∃ a, lastOpening log = some a ∧ a.key = p.key ∧ a.time = p.since := by
  obtain ⟨a, ha, rfl⟩ := Option.map_eq_some_iff.mp h.opening
  exact ⟨a, ha, rfl, rfl⟩

/-- The last arrival repeats exactly if it is within the window of the opening before it. -/
theorem init (h : Repeats width (log ++ [e]) o) : (∃ o', Repeats width log o') ∧
    (e.repeated = true ↔ ∃ a, lastOpening log = some a ∧ e.time ≤ a.time + width) := by
  generalize hlog : log ++ [e] = full at h
  cases h with
  | nil => simp at hlog
  | @opened log' o' x t h hout =>
    obtain ⟨rfl, he⟩ := List.append_inj' hlog rfl
    obtain rfl : e = ⟨x, t, false⟩ := by simpa using he
    refine ⟨⟨_, h⟩, by simp, ?_⟩
    rintro ⟨a, ha, hle⟩
    obtain ⟨p, hp, hpt⟩ := h.lastOpening_eq ha
    rw [← hpt] at hle
    exact absurd hle (hout p hp)
  | @repeated log' p x t h hin =>
    obtain ⟨rfl, he⟩ := List.append_inj' hlog rfl
    obtain rfl : e = ⟨x, t, true⟩ := by simpa using he
    refine ⟨⟨_, h⟩, fun _ => ?_, fun _ => rfl⟩
    obtain ⟨a, ha, -, hat⟩ := h.exists_lastOpening
    refine ⟨a, ha, ?_⟩
    rw [hat]
    exact hin

theorem of_append (h : Repeats width (before ++ after) o) : ∃ o', Repeats width before o' := by
  induction after using List.reverseRecOn generalizing o with
  | nil => exact ⟨o, by simpa using h⟩
  | append_singleton after e ih =>
    rw [← List.append_assoc] at h
    obtain ⟨⟨o', h'⟩, -⟩ := h.init
    exact ih h'

/-- An arrival repeats exactly if it is within the window of the last opening before it. -/
theorem repeated_iff (h : Repeats width (before ++ e :: after) o) :
    e.repeated = true ↔ ∃ a, lastOpening before = some a ∧ e.time ≤ a.time + width := by
  rw [← List.singleton_append, ← List.append_assoc] at h
  obtain ⟨o', h'⟩ := h.of_append
  exact h'.init.2

theorem apart (h : Repeats width log o) :
    (openings log).IsChain fun a b => ¬ b.time ≤ a.time + width := by
  induction h with
  | nil => exact .nil
  | @opened log o x t h hout ih =>
    rw [openings_opened, List.isChain_append]
    refine ⟨ih, .singleton _, ?_⟩
    intro a ha b hb
    obtain rfl : b = ⟨x, t, false⟩ := by simpa using hb.symm
    obtain ⟨p, hp, hpt⟩ := h.lastOpening_eq ha
    rw [← hpt]
    exact hout p hp
  | repeated h hin ih =>
    rw [openings_repeated]
    exact ih

end Repeats

end Minsight

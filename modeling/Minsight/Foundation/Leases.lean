import Mathlib.Data.Nat.Notation
import Mathlib.Logic.Function.Basic
import Minsight.Foundation.System

/-! # Leases

Any number of workers take names in a store whose entries expire. A worker sets the entry of a
name when there is none, works, and deletes the entry when it ends. It may read the entry first
and delete it only when it holds the worker's own value. Every command is a step of its own, and
any time may pass between two steps.
-/

namespace Minsight

namespace Leases

structure Lease (κ : Type) where
  key : κ
  /-- The time after which an entry expires. -/
  ttl : ℕ
  /-- The entry is read and compared with the worker's value before it is deleted. -/
  compares : Bool

structure Entry (ν : Type) where
  value : ν
  expiresAt : ℕ
  /-- Who has set it, for an observer. -/
  owner : ℕ

structure Hold (κ ν : Type) where
  lease : Lease κ
  value : ν
  since : ℕ

def Hold.expiresAt {κ ν : Type} (h : Hold κ ν) : ℕ := h.since + h.lease.ttl

inductive Worker (κ ν : Type)
  | idle
  | working (h : Hold κ ν)
  /-- It has read its own value. -/
  | owning (h : Hold κ ν)

structure State (κ ν : Type) where
  clock : ℕ := 0
  entries : κ → Option (Entry ν) := fun _ => none
  workers : ℕ → Worker κ ν := fun _ => .idle

inductive Action (κ ν : Type)
  | tick (d : ℕ)
  | acquire (w : ℕ) (lease : Lease κ) (value : ν)
  | read (w : ℕ)
  | delete (w : ℕ)
  /-- The worker dies, or the store does not answer it. -/
  | leave (w : ℕ)

variable {κ ν : Type}

def Worker.hold? : Worker κ ν → Option (Hold κ ν)
  | .idle => none
  | .working h | .owning h => some h

def Worker.releases? : Worker κ ν → Option (Hold κ ν)
  | .idle => none
  | .working h => if h.lease.compares then none else some h
  | .owning h => some h

/-- The entry of a name, unless it has expired. -/
def State.get (s : State κ ν) (k : κ) : Option (Entry ν) :=
  (s.entries k).filter fun e => decide (s.clock < e.expiresAt)

def inTime (s : State κ ν) : Action κ ν → Bool
  | .delete w => (s.workers w).releases?.all fun h => decide (s.clock < h.expiresAt)
  | _ => true

/-- The next command of a worker deletes an entry that another worker has set and still uses. -/
def Steals (s : State κ ν) (w v : ℕ) : Prop :=
  ∃ h h' e, (s.workers w).releases? = some h ∧ s.get h.lease.key = some e ∧ e.owner = v ∧
    v ≠ w ∧ (s.workers v).hold? = some h' ∧ h'.lease.key = h.lease.key

def Kept (s : State κ ν) : Prop :=
  ∀ w h, (s.workers w).hold? = some h → s.clock < h.expiresAt →
    s.entries h.lease.key = some { value := h.value, expiresAt := h.expiresAt, owner := w }

section

variable {s s' : State κ ν} {a : Action κ ν} {w v : ℕ} {lease : Lease κ} {value : ν}
  {h : Hold κ ν}

theorem hold_of_releases {x : Worker κ ν} (hx : x.releases? = some h) : x.hold? = some h := by
  cases x with
  | idle => cases hx
  | working h' =>
    rw [Worker.releases?] at hx
    split at hx
    · cases hx
    · exact hx
  | owning h' => exact hx

theorem get_eq_some {k : κ} {e : Entry ν} (hk : s.entries k = some e)
    (he : s.clock < e.expiresAt) : s.get k = some e := by
  rw [State.get, hk, Option.filter_some, decide_eq_true he, if_pos rfl]

/-- Replacing one worker keeps what is known if the new one holds nothing the old one did not. -/
theorem Kept.setWorker (hs : Kept s) {x : Worker κ ν}
    (hx : ∀ h, x.hold? = some h → (s.workers w).hold? = some h) :
    Kept { s with workers := Function.update s.workers w x } := by
  intro v h hv hclock
  dsimp only at hv hclock ⊢
  by_cases hvw : v = w
  · subst hvw
    rw [Function.update_self] at hv
    exact hs v h (hx h hv) hclock
  · rw [Function.update_of_ne hvw] at hv
    exact hs v h hv hclock

theorem Kept.not_steals (hs : Kept s) (hin : inTime s (.delete w) = true) : ¬ Steals s w v := by
  rintro ⟨h, h', e, hw, he, rfl, hne, -, -⟩
  rw [inTime, hw] at hin
  have hin' : s.clock < h.expiresAt := of_decide_eq_true hin
  rw [get_eq_some (hs w h (hold_of_releases hw) hin') hin'] at he
  exact hne (congrArg Entry.owner (Option.some.inj he)).symm

theorem kept_init : Kept ({} : State κ ν) := nofun

variable [DecidableEq κ]

theorem Kept.acquire (hs : Kept s) (hfree : s.get lease.key = none) :
    Kept { s with
      entries := Function.update s.entries lease.key
        (some { value := value, expiresAt := s.clock + lease.ttl, owner := w })
      workers := Function.update s.workers w
        (.working { lease := lease, value := value, since := s.clock }) } := by
  intro v h hv hclock
  dsimp only at hv hclock ⊢
  by_cases hvw : v = w
  · subst hvw
    rw [Function.update_self] at hv
    obtain rfl := Option.some.inj hv
    exact Function.update_self ..
  · rw [Function.update_of_ne hvw] at hv
    have hentry := hs v h hv hclock
    -- an entry that has not expired would have refused the worker
    have hkey : h.lease.key ≠ lease.key := by
      intro hkey
      rw [← hkey, get_eq_some hentry hclock] at hfree
      cases hfree
    exact (Function.update_of_ne hkey ..).trans hentry

/-- Who deletes in time deletes its own entry, so the others keep theirs. -/
theorem Kept.delete (hs : Kept s) (hw : (s.workers w).releases? = some h)
    (hin : s.clock < h.expiresAt) :
    Kept { s with
      entries := Function.update s.entries h.lease.key none
      workers := Function.update s.workers w .idle } := by
  intro v h' hv hclock
  dsimp only at hv hclock ⊢
  by_cases hvw : v = w
  · subst hvw
    rw [Function.update_self] at hv
    cases hv
  · rw [Function.update_of_ne hvw] at hv
    have hentry := hs v h' hv hclock
    have hown := hs w h (hold_of_releases hw) hin
    have hkey : h'.lease.key ≠ h.lease.key := by
      intro hkey
      rw [hkey, hown] at hentry
      exact hvw (congrArg Entry.owner (Option.some.inj hentry)).symm
    exact (Function.update_of_ne hkey ..).trans hentry

variable [DecidableEq ν]

def step (a : Action κ ν) (s : State κ ν) : Option (State κ ν) :=
  match a with
  | .tick d => some { s with clock := s.clock + d }
  | .acquire w lease value =>
    match s.workers w with
    | .idle =>
      match s.get lease.key with
      | some _ => some s
      | none =>
        let h : Hold κ ν := { lease := lease, value := value, since := s.clock }
        some { s with
          entries := Function.update s.entries lease.key
            (some { value := value, expiresAt := h.expiresAt, owner := w })
          workers := Function.update s.workers w (.working h) }
    | _ => none
  | .read w =>
    match s.workers w with
    | .working h =>
      if h.lease.compares then
        let own := (s.get h.lease.key).any fun e => e.value == h.value
        some { s with workers := Function.update s.workers w (if own then .owning h else .idle) }
      else none
    | _ => none
  | .delete w =>
    match (s.workers w).releases? with
    | some h =>
      some { s with
        entries := Function.update s.entries h.lease.key none
        workers := Function.update s.workers w .idle }
    | none => none
  | .leave w =>
    match s.workers w with
    | .idle => none
    | _ => some { s with workers := Function.update s.workers w .idle }

theorem Kept.step (hs : Kept s) (hin : inTime s a = true) (h : step a s = some s') : Kept s' := by
  cases a with
  | tick d =>
    obtain rfl := Option.some.inj h
    intro w hold hw hclock
    exact hs w hold hw (by simp only at hclock; omega)
  | acquire w lease value =>
    simp only [Leases.step] at h
    split at h
    · split at h
      · obtain rfl := Option.some.inj h
        exact hs
      · rename_i hfree
        obtain rfl := Option.some.inj h
        exact hs.acquire hfree
    · cases h
  | read w =>
    simp only [Leases.step] at h
    split at h
    · rename_i hold hw
      split at h
      · obtain rfl := Option.some.inj h
        refine hs.setWorker fun h' hh' => ?_
        split at hh'
        · rw [hw]
          exact hh'
        · cases hh'
      · cases h
    · cases h
  | delete w =>
    simp only [Leases.step] at h
    split at h
    · rename_i hold hw
      obtain rfl := Option.some.inj h
      rw [inTime, hw] at hin
      exact hs.delete hw (of_decide_eq_true hin)
    · cases h
  | leave w =>
    simp only [Leases.step] at h
    split at h
    · cases h
    · obtain rfl := Option.some.inj h
      exact hs.setWorker nofun

end

end Leases

end Minsight

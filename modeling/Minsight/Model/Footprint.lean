import Minsight.Foundation.Batch
import Minsight.Model.World

/-! # Footprints

Relations between the states before and after a program that look at the database only,
or only at what lies outside it.
-/

namespace Minsight

def OnDb (r : Db → Db → Prop) (w w' : World) : Prop := r w.db w'.db

/-- A relation between what lies outside two databases, read on worlds. -/
def OnOut (r : Outside → Outside → Prop) (w w' : World) : Prop := r w.out w'.out

/-- The part of the database that `f` shows is the same. -/
abbrev Keeps {β : Type} (f : Db → β) : World → World → Prop := OnDb fun db db' => f db' = f db

/-- The part outside the database that `f` shows is the same. -/
abbrev KeepsOut {β : Type} (f : Outside → β) : World → World → Prop :=
  OnOut fun o o' => f o' = f o

variable {r : Db → Db → Prop} {q : Outside → Outside → Prop} {α β : Type}

instance [Std.Refl r] : Std.Refl (OnDb r) where
  refl w := Std.Refl.refl w.db

instance [IsTrans Db r] : IsTrans World (OnDb r) where
  trans _ _ _ h h' := IsTrans.trans (r := r) _ _ _ h h'

instance [Std.Refl q] : Std.Refl (OnOut q) where
  refl w := Std.Refl.refl w.out

instance [IsTrans Outside q] : IsTrans World (OnOut q) where
  trans _ _ _ h h' := IsTrans.trans (r := q) _ _ _ h h'

instance reflSameColumn {γ : Type} (f : γ → β) : Std.Refl fun x y : γ => f y = f x where
  refl _ := rfl

instance transSameColumn {γ : Type} (f : γ → β) : IsTrans γ fun x y : γ => f y = f x where
  trans _ _ _ h h' := h'.trans h

/-- An implication between the two states is reflexive and transitive. -/
instance reflImplies {γ : Type} (I : γ → Prop) : Std.Refl fun x y : γ => I x → I y where
  refl _ := id

instance transImplies {γ : Type} (I : γ → Prop) : IsTrans γ fun x y : γ => I x → I y where
  trans _ _ _ h h' := h' ∘ h

open Tx Session

section Read

variable {R : World → World → Prop} [Std.Refl R]

theorem respects_query (f : Db → α) : Respects R (query f) := respects_read _

theorem respects_redis (f : Outside → α) : Respects R (redis f) := respects_read _

theorem respects_statement [IsTrans World R] (fault : Option Exn) :
    Respects R (statement fault) := by
  refine Respects.bind (respects_read _) fun failed => ?_
  split
  · exact respects_raise _
  · exact respects_fallible _

theorem respects_sqlLimit (n : ℤ) : Respects R (sqlLimit n) := by
  unfold sqlLimit
  split
  · exact respects_raise _
  · exact respects_pure _

end Read

def AllowsClock (rt : Runtime) (R : World → World → Prop) : Prop :=
  ∀ w shown, R w { w with out := { w.out with clock := rt.clock.reading w.out.clock shown } }

theorem AllowsClock.utcNow {rt : Runtime} {R : World → World → Prop} (h : AllowsClock rt R)
    (shown : Time) : Respects R (utcNow rt shown) := fun w => h w shown

theorem allowsClock_onDb [Std.Refl r] {rt : Runtime} : AllowsClock rt (OnDb r) :=
  fun w _ => Std.Refl.refl (r := r) w.db

theorem allowsClock_keepsOut {f : Outside → β} {rt : Runtime}
    (h : ∀ (o : Outside) t, f { o with clock := t } = f o) : AllowsClock rt (KeepsOut f) :=
  fun w _ => h w.out _

theorem respects_setRedis [Std.Refl r] (f : Outside → Outside) :
    Respects (OnDb r) (setRedis f) :=
  fun w => Std.Refl.refl (r := r) w.db

theorem respects_utcNow [Std.Refl r] (rt : Runtime) (shown : Time) :
    Respects (OnDb r) (utcNow rt shown) :=
  allowsClock_onDb.utcNow shown

theorem keeps_modify {f : Db → β} {g : Db → Db} (h : ∀ db, f (g db) = f db) :
    Respects (Keeps f) (modify g) := fun w => h w.db

theorem respectsOut_modify [Std.Refl q] (f : Db → Db) : Respects (OnOut q) (modify f) :=
  fun w => Std.Refl.refl (r := q) w.out

theorem respectsOut_setRedis {f : Outside → Outside} (h : ∀ o, q o (f o)) :
    Respects (OnOut q) (setRedis f) := fun w => h w.out

abbrev ClockPasses (rt : Runtime) : World → World → Prop :=
  OnOut fun o o' => rt.clock.Passes o.clock o'.clock

instance (k : ClockKind) : Std.Refl fun o o' : Outside => k.Passes o.clock o'.clock where
  refl _ := .refl _ _

instance (k : ClockKind) : IsTrans Outside fun o o' => k.Passes o.clock o'.clock where
  trans _ _ _ := .trans

theorem allowsClock_clockPasses {rt : Runtime} : AllowsClock rt (ClockPasses rt) :=
  fun w shown => (rt.clock.reading_follows w.out.clock shown).passes

theorem clockPasses_setRedis {rt : Runtime} {f : Outside → Outside}
    (h : ∀ o, (f o).clock = o.clock) : Respects (ClockPasses rt) (setRedis f) :=
  respectsOut_setRedis fun o => (h o).symm ▸ .refl _ _

/--
What `f` shows of the database stays as it is, the budget counters too, and the clock
passes.
-/
structure Leaves (rt : Runtime) (f : Db → β) (w w' : World) : Prop where
  db : f w'.db = f w.db
  dailyCount : w'.out.dailyCount = w.out.dailyCount
  agentStarts : w'.out.agentStarts = w.out.agentStarts
  clock : rt.clock.Passes w.out.clock w'.out.clock

section Leaves

variable {rt : Runtime} {f : Db → β}

instance : Std.Refl (Leaves rt f) where
  refl _ := ⟨rfl, rfl, rfl, .refl _ _⟩

instance : IsTrans World (Leaves rt f) where
  trans _ _ _ h h' := ⟨h'.db.trans h.db, h'.dailyCount.trans h.dailyCount,
    h'.agentStarts.trans h.agentStarts, h.clock.trans h'.clock⟩

theorem allowsClock_leaves : AllowsClock rt (Leaves rt f) := fun _ _ =>
  ⟨rfl, rfl, rfl, (rt.clock.reading_follows _ _).passes⟩

theorem leaves_utcNow (shown : Time) : Respects (Leaves rt f) (utcNow rt shown) :=
  allowsClock_leaves.utcNow shown

theorem leaves_modify {g : Db → Db} (h : ∀ db, f (g db) = f db) :
    Respects (Leaves rt f) (modify g) := fun w => ⟨h w.db, rfl, rfl, .refl _ _⟩

theorem leaves_setRedis {g : Outside → Outside}
    (h : ∀ o, (g o).dailyCount = o.dailyCount ∧ (g o).agentStarts = o.agentStarts ∧
      (g o).clock = o.clock) : Respects (Leaves rt f) (setRedis g) := fun w => by
  obtain ⟨hd, ha, hc⟩ := h w.out
  exact ⟨rfl, hd, ha, hc.symm ▸ .refl _ _⟩

theorem leaves_transaction {m : Session α} (hm : Respects (Leaves rt f) m) :
    Respects (Leaves rt f) (transaction m) := by
  refine respects_atomically (fun _ _ _ h => hm.of_exec h) fun w e w' h => ?_
  have hw : Leaves rt f w w' := hm.of_exec h
  exact ⟨rfl, hw.dailyCount, hw.agentStarts, hw.clock⟩

/-- A loop whose failing items are rolled back leaves alone what its bodies leave alone. -/
theorem leaves_loop {ι τ ρ : Type} {L : Loop Exn World ι τ ρ}
    (hb : ∀ i, Respects (Leaves rt f) (L.body i)) (hr : L.rollback = rollback) {is : List ι}
    {r : ρ} : Respects (Leaves rt f) (L.run is r) := by
  refine Loop.respects_run (fun i w _ w' h => (hb i).of_exec h) fun i w _ w' h => ?_
  have hw : Leaves rt f w w' := (hb i).of_exec h
  rw [hr]
  exact ⟨rfl, hw.dailyCount, hw.agentStarts, hw.clock⟩

theorem Leaves.mono {γ : Type} {g : Db → γ} {w w' : World} (h : Leaves rt f w w')
    (hg : f w'.db = f w.db → g w'.db = g w.db) : Leaves rt g w w' :=
  ⟨hg h.db, h.dailyCount, h.agentStarts, h.clock⟩

end Leaves

theorem respects_transaction [Std.Refl r] {m : Session α}
    (h : ∀ w a w', exec m w = (.ok a, w') → r w.db w'.db) :
    Respects (OnDb r) (transaction m) :=
  respects_atomically h fun w _ _ _ => Std.Refl.refl (r := r) w.db

theorem transaction_respects [Std.Refl r] {m : Session α} (hm : Respects (OnDb r) m) :
    Respects (OnDb r) (transaction m) :=
  respects_transaction fun _ _ _ h => hm.of_exec h

theorem transaction_respectsOut {m : Session α} (hm : Respects (OnOut q) m) :
    Respects (OnOut q) (transaction m) := by
  refine respects_atomically (fun _ _ _ h => hm.of_exec h) fun w e w' h => ?_
  have hout : OnOut q w w' := hm.of_exec h
  exact hout

end Minsight

import Mathlib.Data.List.Basic
import Minsight.Foundation.System

/-! # Transactions over one database

Any number of connections run transactions on a database at `READ COMMITTED`. A statement
sees what is committed and the writes of its own transaction. A write locks its row until the
transaction ends, and a connection that needs a row another one has locked waits. What holds
in every run is proved from what each connection does and from what the commits of the others
can do to it.
-/

namespace Minsight

inductive Statement (ω τ : Type)
  | read (q : τ)
  | write (ws : List ω) (q : τ)
  | commit (q : τ)
  | abort (q : τ)

structure Connection (ω τ : Type) where
  point : τ
  log : List ω := []

/-- What the connections run: `σ` is the database, `κ` names rows, `ω` is a write, `τ` a point. -/
structure Program (σ κ ω τ ℓ : Type) where
  apply : ω → σ → σ
  /-- The row a write locks; an insert locks none unless it has a unique key. -/
  row : ω → Option κ
  /-- The next statement, given what the world answers and what the connection sees. -/
  statement : ℓ → σ → τ → Option (Statement ω τ)

/-- The committed database and the connections. -/
structure Shared (σ ω τ : Type) where
  db : σ
  connections : List (Connection ω τ)

namespace Program

variable {σ κ ω τ ℓ : Type} (P : Program σ κ ω τ ℓ)

def applyAll (log : List ω) (db : σ) : σ := log.foldl (fun db w => P.apply w db) db

def locked (log : List ω) : List κ := log.filterMap P.row

section

variable [DecidableEq κ]

/-- No other connection has locked a row of this log of connection `i`. -/
def free (connections : List (Connection ω τ)) (i : ℕ) (log : List ω) : Bool :=
  connections.zipIdx.all fun (c, j) =>
    j == i || (P.locked log).all fun k => !(P.locked c.log).contains k

/-- One statement of one connection; a connection that would have to wait takes no step. -/
def step (label : ℕ × ℓ) (s : Shared σ ω τ) : Option (Shared σ ω τ) := do
  let c ← s.connections[label.1]?
  let set (q : τ) (log : List ω) := s.connections.set label.1 { point := q, log := log }
  match ← P.statement label.2 (P.applyAll c.log s.db) c.point with
  | .read q => some { s with connections := set q c.log }
  | .write ws q =>
    if P.free s.connections label.1 (c.log ++ ws) then
      some { s with connections := set q (c.log ++ ws) }
    else none
  | .commit q => some { db := P.applyAll c.log s.db, connections := set q [] }
  | .abort q => some { s with connections := set q [] }

/-- The interleavings of some connections. -/
def system (init : Shared σ ω τ) : System (Shared σ ω τ) (ℕ × ℓ) where
  init := init
  step := P.step

end

variable {P} {s s' : Shared σ ω τ} {connections : List (Connection ω τ)} {i j : ℕ} {l : ℓ}
  {c d : Connection ω τ} {log : List ω}

@[simp] theorem applyAll_nil (db : σ) : P.applyAll [] db = db := rfl

theorem applyAll_cons (w : ω) (log : List ω) (db : σ) :
    P.applyAll (w :: log) db = P.applyAll log (P.apply w db) := rfl

theorem applyAll_append (log log' : List ω) (db : σ) :
    P.applyAll (log ++ log') db = P.applyAll log' (P.applyAll log db) :=
  List.foldl_append

def Exclusive (P : Program σ κ ω τ ℓ) (connections : List (Connection ω τ)) : Prop :=
  ∀ (i j : ℕ) (c d : Connection ω τ), connections[i]? = some c → connections[j]? = some d →
    i ≠ j → List.Disjoint (P.locked c.log) (P.locked d.log)

theorem exclusive_of_idle (h : ∀ c ∈ connections, c.log = []) : P.Exclusive connections := by
  intro i j c d hc _ _
  rw [h c (List.mem_of_getElem? hc)]
  exact List.disjoint_nil_left _

theorem getElem?_set_cases (h : (connections.set i c)[j]? = some d) :
    j = i ∧ d = c ∨ j ≠ i ∧ connections[j]? = some d := by
  rw [List.getElem?_set] at h
  split at h
  · rename_i hij
    split at h
    · exact .inl ⟨hij.symm, (Option.some.inj h).symm⟩
    · cases h
  · rename_i hij
    exact .inr ⟨Ne.symm hij, h⟩

theorem Exclusive.set (h : P.Exclusive connections) (hc : ∀ (j : ℕ) (d : Connection ω τ),
    connections[j]? = some d → j ≠ i → List.Disjoint (P.locked c.log) (P.locked d.log)) :
    P.Exclusive (connections.set i c) := by
  intro j k d e hd he hne
  rcases getElem?_set_cases hd with ⟨rfl, rfl⟩ | ⟨hj, hd'⟩
  · rcases getElem?_set_cases he with ⟨rfl, -⟩ | ⟨hk, he'⟩
    · exact absurd rfl hne
    · exact hc k e he' hk
  · rcases getElem?_set_cases he with ⟨rfl, rfl⟩ | ⟨-, he'⟩
    · exact fun r hr hr' => hc j d hd' hj hr' hr
    · exact h j k d e hd' he' hne

variable [DecidableEq κ]

theorem free_iff : P.free connections i log = true ↔ ∀ (j : ℕ) (d : Connection ω τ),
    connections[j]? = some d → j ≠ i → List.Disjoint (P.locked log) (P.locked d.log) := by
  simp only [free, List.all_eq_true, Bool.or_eq_true, beq_iff_eq, Bool.not_eq_true',
    List.contains_eq_mem, decide_eq_false_iff_not, Prod.forall, List.mem_zipIdx_iff_getElem?]
  constructor
  · intro h j d hd hne k hk hk'
    exact (h d j hd).resolve_left hne k hk hk'
  · intro h d j hd
    by_cases hne : j = i
    · exact .inl hne
    · exact .inr fun k hk hk' => h j d hd hne hk hk'

inductive Steps (P : Program σ κ ω τ ℓ) (s : Shared σ ω τ) (i : ℕ) (l : ℓ)
    (c : Connection ω τ) : σ → Connection ω τ → Prop
  | read {q : τ} (statement : P.statement l (P.applyAll c.log s.db) c.point = some (.read q)) :
      Steps P s i l c s.db { c with point := q }
  | write {ws : List ω} {q : τ}
      (statement : P.statement l (P.applyAll c.log s.db) c.point = some (.write ws q))
      (free : P.free s.connections i (c.log ++ ws) = true) :
      Steps P s i l c s.db { point := q, log := c.log ++ ws }
  | commit {q : τ}
      (statement : P.statement l (P.applyAll c.log s.db) c.point = some (.commit q)) :
      Steps P s i l c (P.applyAll c.log s.db) { point := q }
  | abort {q : τ}
      (statement : P.statement l (P.applyAll c.log s.db) c.point = some (.abort q)) :
      Steps P s i l c s.db { point := q }

theorem steps_of_step (h : P.step (i, l) s = some s') :
    ∃ c db' c', s.connections[i]? = some c ∧ Steps P s i l c db' c' ∧
      s' = { db := db', connections := s.connections.set i c' } := by
  obtain ⟨c, hc, h⟩ := Option.bind_eq_some_iff.mp h
  obtain ⟨statement, hstatement, h⟩ := Option.bind_eq_some_iff.mp h
  cases statement with
  | read q => exact ⟨c, _, _, hc, .read hstatement, (Option.some.inj h).symm⟩
  | write ws q =>
    dsimp only at h
    split at h
    · rename_i hfree
      exact ⟨c, _, _, hc, .write hstatement hfree, (Option.some.inj h).symm⟩
    · cases h
  | commit q => exact ⟨c, _, _, hc, .commit hstatement, (Option.some.inj h).symm⟩
  | abort q => exact ⟨c, _, _, hc, .abort hstatement, (Option.some.inj h).symm⟩

theorem Exclusive.steps {db' : σ} {c' : Connection ω τ} (h : P.Exclusive s.connections)
    (hc : s.connections[i]? = some c) (hs : Steps P s i l c db' c') :
    P.Exclusive (s.connections.set i c') := by
  cases hs with
  | read => exact h.set fun j d hd hne => h i j c d hc hd (Ne.symm hne)
  | write _ hfree => exact h.set (free_iff.mp hfree)
  | commit => exact h.set fun _ _ _ _ => List.disjoint_nil_left _
  | abort => exact h.set fun _ _ _ _ => List.disjoint_nil_left _

/--
What holds of the committed database (`G`) and of each connection with it (`L`). A statement has
to keep what holds of its connection, a commit what holds of the database, and no commit may
break what holds of a connection that has locked none of its rows.
-/
structure Outline (P : Program σ κ ω τ ℓ) (C : Shared σ ω τ → ℕ × ℓ → Prop) (G : σ → Prop)
    (L : σ → Connection ω τ → Prop) : Prop where
  keeps : ∀ {s i l c db' c'}, C s (i, l) → s.connections[i]? = some c → G s.db → L s.db c →
    Steps P s i l c db' c' → G db' ∧ L db' c'
  interfere : ∀ {s i l c d q}, C s (i, l) → s.connections[i]? = some c → G s.db → L s.db c →
    P.statement l (P.applyAll c.log s.db) c.point = some (.commit q) → L s.db d →
    List.Disjoint (P.locked c.log) (P.locked d.log) → L (P.applyAll c.log s.db) d

theorem Outline.invariant {C : Shared σ ω τ → ℕ × ℓ → Prop} {G : σ → Prop}
    {L : σ → Connection ω τ → Prop} (h : P.Outline C G L) {init : Shared σ ω τ} (hG : G init.db)
    (hL : ∀ c ∈ init.connections, L init.db c) (hidle : ∀ c ∈ init.connections, c.log = [])
    (hs : (P.system init).ReachableBy C s) :
    G s.db ∧ (∀ c ∈ s.connections, L s.db c) ∧ P.Exclusive s.connections := by
  refine hs.invariant (I := fun s => G s.db ∧ (∀ c ∈ s.connections, L s.db c) ∧
    P.Exclusive s.connections) ⟨hG, hL, exclusive_of_idle hidle⟩ ?_
  rintro s ⟨i, l⟩ s' ⟨hG, hL, hexcl⟩ hC hstep
  obtain ⟨c, db', c', hc, hsteps, rfl⟩ := steps_of_step hstep
  obtain ⟨hG', hL'⟩ := h.keeps hC hc hG (hL c (List.mem_of_getElem? hc)) hsteps
  refine ⟨hG', fun d hd => ?_, hexcl.steps hc hsteps⟩
  obtain ⟨j, hj⟩ := List.mem_iff_getElem?.mp hd
  rcases getElem?_set_cases hj with ⟨-, rfl⟩ | ⟨hne, hold⟩
  · exact hL'
  · have hLd := hL d (List.mem_of_getElem? hold)
    cases hsteps with
    | commit hstatement =>
      exact h.interfere hC hc hG (hL c (List.mem_of_getElem? hc)) hstatement hLd
        (hexcl i j c d hc hold (Ne.symm hne))
    | read => exact hLd
    | write => exact hLd
    | abort => exact hLd

/-- A connection with no other never waits. -/
theorem step_alone {db : σ} : P.step (0, l) { db := db, connections := [c] } =
    (P.statement l (P.applyAll c.log db) c.point).map fun
      | .read q => { db := db, connections := [{ c with point := q }] }
      | .write ws q => { db := db, connections := [{ point := q, log := c.log ++ ws }] }
      | .commit q => { db := P.applyAll c.log db, connections := [{ point := q }] }
      | .abort q => { db := db, connections := [{ point := q }] } := by
  simp only [step, List.getElem?_cons_zero, Option.bind_eq_bind, Option.bind_some]
  cases P.statement l (P.applyAll c.log db) c.point with
  | none => rfl
  | some statement =>
    cases statement with
    | read q => rfl
    | write ws q =>
      have hfree : P.free [c] 0 (c.log ++ ws) = true := by
        refine free_iff.mpr fun j d hd hne => ?_
        obtain ⟨j, rfl⟩ := Nat.exists_eq_succ_of_ne_zero hne
        cases hd
      simp [hfree]
    | commit q => rfl
    | abort q => rfl

end Program

end Minsight

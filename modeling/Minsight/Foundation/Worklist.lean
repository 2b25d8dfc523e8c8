import Mathlib.Data.Int.Notation
import Mathlib.Data.List.Nodup
import Mathlib.Data.List.Perm.Subperm

/-! # Loops and worklist searches

A loop runs a partial step until there is none. A search is a loop over a queue of entries: it
expands what it takes off the front for the first time, and puts the neighbours of what it expands
at the end, down to a depth and as long as a cap on expanded and waiting entries leaves room.
-/

namespace Minsight

structure WhileLoop (σ β : Type) [WellFoundedRelation β] where
  step : σ → Option σ
  rank : σ → β
  descends : ∀ {s s'}, step s = some s' → WellFoundedRelation.rel (rank s') (rank s)

namespace WhileLoop

variable {σ τ β γ : Type} [WellFoundedRelation β] [WellFoundedRelation γ] (L : WhileLoop σ β)
  (K : WhileLoop τ γ)

/-- The state in which the loop ends. -/
def run (s : σ) : σ :=
  match _h : L.step s with
  | none => s
  | some s' => run s'
termination_by L.rank s
decreasing_by exact L.descends _h

theorem run_of_none {s : σ} (h : L.step s = none) : L.run s = s := by
  rw [run]
  split
  · rfl
  · rename_i s' hs'
    rw [h] at hs'
    cases hs'

theorem run_of_some {s s' : σ} (h : L.step s = some s') : L.run s = L.run s' := by
  rw [run]
  split
  · rename_i hnone
    rw [h] at hnone
    cases hnone
  · rename_i t ht
    rw [h] at ht
    rw [Option.some.inj ht]

/-- The rule of a loop: what holds at its start and is kept by every step holds where it ends. -/
theorem run_induct {P : σ → Prop} (keeps : ∀ {s s'}, P s → L.step s = some s' → P s') {s : σ}
    (h : P s) : P (L.run s) := by
  induction s using WhileLoop.run.induct L with
  | case1 s hnone => rwa [L.run_of_none hnone]
  | case2 s s' hsome ih =>
    rw [L.run_of_some hsome]
    exact ih (keeps h hsome)

theorem step_run (s : σ) : L.step (L.run s) = none := by
  induction s using WhileLoop.run.induct L with
  | case1 s hnone => rwa [L.run_of_none hnone]
  | case2 s s' hsome ih => rwa [L.run_of_some hsome]

theorem run_lockstep {R : σ → τ → Prop}
    (lockstep : ∀ {s t}, R s t → Option.Rel R (L.step s) (K.step t)) {s : σ} {t : τ}
    (h : R s t) : R (L.run s) (K.run t) := by
  induction s using WhileLoop.run.induct L generalizing t with
  | case1 s hnone =>
    have hrel := lockstep h
    rw [hnone] at hrel
    generalize ht : K.step t = o at hrel
    cases hrel
    rwa [L.run_of_none hnone, K.run_of_none ht]
  | case2 s s' hsome ih =>
    have hrel := lockstep h
    rw [hsome] at hrel
    generalize ht : K.step t = o at hrel
    cases hrel with
    | some hrel =>
      rw [L.run_of_some hsome, K.run_of_some ht]
      exact ih hrel

/-- `n` steps of the loop. -/
def steps : ℕ → σ → Option σ
  | 0, s => some s
  | n + 1, s => (L.step s).bind (steps n)

theorem exists_steps_run (s : σ) : ∃ n, L.steps n s = some (L.run s) := by
  induction s using WhileLoop.run.induct L with
  | case1 s hnone => exact ⟨0, by rw [L.run_of_none hnone]; rfl⟩
  | case2 s s' hsome ih =>
    obtain ⟨n, hn⟩ := ih
    refine ⟨n + 1, ?_⟩
    rw [L.run_of_some hsome, steps, hsome]
    exact hn

end WhileLoop

/-- A search from the neighbours of an entity, down to a depth, with room for `cap` entries. -/
structure Search (α : Type) where
  next : α → List α
  maxDepth : ℤ
  cap : ℤ

/-- Entities with their depths: those expanded, in order, and those that wait in the queue. -/
structure Search.State (α : Type) where
  expanded : List (α × ℕ) := []
  frontier : List (α × ℕ)

namespace Search

variable {α : Type}

namespace State

variable (st : State α)

def entities : List α := st.expanded.map Prod.fst

def waiting : List α := st.frontier.map Prod.fst

def entries : List (α × ℕ) := st.expanded ++ st.frontier

end State

def initial (start : α) : State α := { frontier := [(start, 0)] }

variable (S : Search α)

def successors (a : α) (depth : ℕ) : List α := if S.maxDepth ≤ depth then [] else S.next a

/-- Entities in reach of the start by so many relations within the depth. -/
inductive Reach (S : Search α) (start : α) : ℕ → α → Prop
  | start : Reach S start 0 start
  | step {n a b} : Reach S start n a → b ∈ S.successors a n → Reach S start (n + 1) b

/-- Entities at the end of a path of so many relations from the start. -/
inductive Path (S : Search α) (start : α) : ℕ → α → Prop
  | start : Path S start 0 start
  | step {n a b} : Path S start n a → b ∈ S.next a → Path S start (n + 1) b

def Within (start a : α) : Prop := ∃ n : ℕ, (n : ℤ) ≤ S.maxDepth ∧ S.Path start n a

section

variable {S} {start a b : α} {depth : ℕ}

theorem mem_successors : b ∈ S.successors a depth ↔ (depth : ℤ) < S.maxDepth ∧ b ∈ S.next a := by
  unfold successors
  split
  · simp; omega
  · rename_i h
    simp only [iff_and_self]
    omega

theorem Reach.within {n : ℕ} (h : S.Reach start n a) (hdepth : 0 ≤ S.maxDepth) :
    (n : ℤ) ≤ S.maxDepth ∧ S.Path start n a := by
  induction h with
  | start => exact ⟨hdepth, .start⟩
  | step _ hb ih =>
    obtain ⟨hlt, hnext⟩ := mem_successors.mp hb
    exact ⟨by omega, ih.2.step hnext⟩

theorem Path.reach {n : ℕ} (h : S.Path start n a) (hn : (n : ℤ) ≤ S.maxDepth) :
    S.Reach start n a := by
  induction h with
  | start => exact .start
  | step _ hb ih => exact (ih (by omega)).step (mem_successors.mpr ⟨by omega, hb⟩)

end

variable [DecidableEq α]

def offer (depth : ℕ) (st : State α) (b : α) : State α :=
  if b ∈ st.entities then st
  else if (st.expanded.length + st.frontier.length : ℤ) < S.cap then
    { st with frontier := st.frontier ++ [(b, depth)] }
  else st

def expand (st : State α) (a : α) (depth : ℕ) (rest : List (α × ℕ)) : State α :=
  (S.successors a depth).foldl (S.offer (depth + 1))
    { st with expanded := st.expanded ++ [(a, depth)], frontier := rest }

def step (st : State α) : Option (State α) :=
  match st.frontier with
  | [] => none
  | (a, depth) :: rest =>
    if S.cap ≤ st.expanded.length then none
    else if a ∈ st.entities then some { st with frontier := rest }
    else some (S.expand st a depth rest)

inductive Move : State α → State α → Prop
  | skip {st a depth rest} : st.frontier = (a, depth) :: rest → a ∈ st.entities →
      Move st { st with frontier := rest }
  | expand {st a depth rest} : st.frontier = (a, depth) :: rest →
      (st.expanded.length : ℤ) < S.cap → a ∉ st.entities → Move st (S.expand st a depth rest)

inductive Through (start : α) : State α → Prop
  | initial : Through start (initial start)
  | step {st st'} : Through start st → S.step st = some st' → Through start st'

inductive Offers (start : α) : State α → α → Prop
  | expand {st a depth rest before b after} : S.Through start st →
      st.frontier = (a, depth) :: rest → (st.expanded.length : ℤ) < S.cap → a ∉ st.entities →
      S.successors a depth = before ++ b :: after →
      Offers start (before.foldl (S.offer (depth + 1))
        { st with expanded := st.expanded ++ [(a, depth)], frontier := rest }) b

/-- Whatever is offered is expanded, or waits, or finds fewer entries than the cap. -/
def HasRoom (start : α) : Prop :=
  ∀ ⦃st b⦄, S.Offers start st b → b ∉ st.entities → b ∉ st.waiting →
    (st.expanded.length + st.frontier.length : ℤ) < S.cap

variable {S} {st st' : State α} {depth : ℕ} {a b start : α}

theorem move_of_step (h : S.step st = some st') : S.Move st st' := by
  unfold step at h
  split at h
  · cases h
  · rename_i a depth rest hfrontier
    split at h
    · cases h
    · rename_i hcap
      split at h
      · rename_i hmem
        obtain rfl := Option.some.inj h
        exact .skip hfrontier hmem
      · rename_i hmem
        obtain rfl := Option.some.inj h
        exact .expand hfrontier (by omega) hmem

@[simp] theorem offer_expanded : (S.offer depth st b).expanded = st.expanded := by
  unfold offer
  split_ifs <;> rfl

@[simp] theorem foldl_offer_expanded (ns : List α) :
    (ns.foldl (S.offer depth) st).expanded = st.expanded := by
  induction ns generalizing st with
  | nil => rfl
  | cons b ns ih => rw [List.foldl_cons, ih, offer_expanded]

@[simp] theorem foldl_offer_entities (ns : List α) :
    (ns.foldl (S.offer depth) st).entities = st.entities := by
  simp [State.entities]

@[simp] theorem expand_expanded (rest : List (α × ℕ)) :
    (S.expand st a depth rest).expanded = st.expanded ++ [(a, depth)] := by
  simp [expand]

/-- How many entries the queue of `st` has room for. -/
def room (S : Search α) (st : State α) : ℕ :=
  (S.cap - st.expanded.length - st.frontier.length).toNat

omit [DecidableEq α] in
theorem room_eq_zero (h : S.cap ≤ st.expanded.length + st.frontier.length) : S.room st = 0 := by
  simp only [room]
  omega

/-- The queue takes the neighbours that are not expanded, as many as it has room for. -/
theorem foldl_offer_frontier (ns : List α) :
    (ns.foldl (S.offer depth) st).frontier =
      st.frontier ++ ((ns.filter (· ∉ st.entities)).take (S.room st)).map (·, depth) := by
  induction ns generalizing st with
  | nil => simp
  | cons b ns ih =>
    rw [List.foldl_cons, ih]
    unfold offer
    split_ifs with hmem hroom
    · simp [hmem]
    · have hroom' : S.room st =
          S.room { st with frontier := st.frontier ++ [(b, depth)] } + 1 := by
        simp only [room, List.length_append, List.length_singleton]
        omega
      have hentities : State.entities { st with frontier := st.frontier ++ [(b, depth)] } =
        st.entities := rfl
      simp [hentities, hmem, hroom', List.take_succ_cons]
    · simp [room_eq_zero (by omega : S.cap ≤ st.expanded.length + st.frontier.length)]

theorem foldl_offer_waiting {ns : List α} (h : b ∈ st.waiting) :
    b ∈ (ns.foldl (S.offer depth) st).waiting := by
  rw [State.waiting, foldl_offer_frontier, List.map_append]
  exact List.mem_append_left _ h

/-- When no new neighbour finds the queue full, every neighbour is expanded or waits. -/
theorem mem_foldl_offer {ns : List α}
    (hroom : ∀ before b after, ns = before ++ b :: after →
      b ∉ (before.foldl (S.offer depth) st).entities →
      b ∉ (before.foldl (S.offer depth) st).waiting →
      ((before.foldl (S.offer depth) st).expanded.length
        + (before.foldl (S.offer depth) st).frontier.length : ℤ) < S.cap) :
    ∀ b ∈ ns, b ∈ st.entities ∨ b ∈ (ns.foldl (S.offer depth) st).waiting := by
  induction ns generalizing st with
  | nil => exact fun b hb => absurd hb List.not_mem_nil
  | cons c ns ih =>
    have hentities : (S.offer depth st c).entities = st.entities := by simp [State.entities]
    have hns := @ih (S.offer depth st c) fun before b after heq =>
      hroom (c :: before) b after (by rw [heq, List.cons_append])
    rw [hentities] at hns
    have hc : c ∈ st.entities ∨ c ∈ (S.offer depth st c).waiting := by
      by_cases hmem : c ∈ st.entities
      · exact Or.inl hmem
      · right
        rw [offer, if_neg hmem]
        split
        · simp [State.waiting]
        · rename_i hfull
          by_contra hwait
          exact hfull (hroom [] c ns rfl hmem hwait)
    intro b hb
    rw [List.foldl_cons]
    rcases List.mem_cons.mp hb with rfl | hb
    · exact hc.imp_right foldl_offer_waiting
    · exact hns b hb

theorem length_foldl_offer (ns : List α) :
    (ns.foldl (S.offer depth) st).frontier.length ≤ st.frontier.length + ns.length := by
  rw [foldl_offer_frontier, List.length_append, List.length_map, List.length_take]
  have hfilter := List.length_filter_le (· ∉ st.entities) ns
  omega

/-- `b` is expanded or waits at a depth of at most `d`. -/
def State.Known (st : State α) (b : α) (d : ℕ) : Prop := ∃ e ≤ d, (b, e) ∈ st.entries

structure Inv (S : Search α) (start : α) (st : State α) : Prop where
  nodup : st.entities.Nodup
  room : (st.expanded.length + st.frontier.length : ℤ) ≤ S.cap
  reached : ∀ x ∈ st.entries, S.Reach start x.2 x.1
  startKnown : st.Known start 0
  sorted : st.frontier.Pairwise fun x y => x.2 ≤ y.2 ∧ y.2 ≤ x.2 + 1
  expanded_le : ∀ x ∈ st.expanded, ∀ y ∈ st.frontier, x.2 ≤ y.2

def Closed (S : Search α) (st : State α) : Prop :=
  ∀ x ∈ st.expanded, ∀ b ∈ S.successors x.1 x.2, st.Known b (x.2 + 1)

theorem mem_expand_frontier {rest : List (α × ℕ)} {x : α × ℕ}
    (h : x ∈ (S.expand st a depth rest).frontier) :
    x ∈ rest ∨ x.2 = depth + 1 ∧ x.1 ∈ S.successors a depth := by
  rw [expand, foldl_offer_frontier] at h
  rcases List.mem_append.mp h with h | h
  · exact Or.inl h
  · obtain ⟨b, hb, rfl⟩ := List.mem_map.mp h
    exact Or.inr ⟨rfl, List.mem_of_mem_filter (List.mem_of_mem_take hb)⟩

theorem mem_expand_of_mem_rest {rest : List (α × ℕ)} {x : α × ℕ} (h : x ∈ rest) :
    x ∈ (S.expand st a depth rest).frontier := by
  rw [expand, foldl_offer_frontier]
  exact List.mem_append_left _ h

theorem length_expand_frontier (st : State α) (a : α) (depth : ℕ) (rest : List (α × ℕ)) :
    (S.expand st a depth rest).frontier.length ≤
      rest.length + (S.cap - st.expanded.length - 1 - rest.length).toNat := by
  rw [expand, foldl_offer_frontier, List.length_append, List.length_map, List.length_take]
  simp only [room, List.length_append, List.length_singleton]
  omega

theorem Inv.known_of_move (inv : S.Inv start st) (h : S.Move st st') {d : ℕ}
    (hb : st.Known b d) : st'.Known b d := by
  obtain ⟨e, he, hmem⟩ := hb
  rcases List.mem_append.mp hmem with hmem | hmem
  · cases h with
    | skip => exact ⟨e, he, List.mem_append_left _ hmem⟩
    | expand =>
      refine ⟨e, he, List.mem_append_left _ ?_⟩
      rw [expand_expanded]
      exact List.mem_append_left _ hmem
  · cases h with
    | @skip a depth rest hfrontier ha =>
      rw [hfrontier] at hmem
      rcases List.mem_cons.mp hmem with heq | hmem
      · obtain ⟨⟨a', e'⟩, hx, rfl⟩ := List.mem_map.mp ha
        obtain ⟨rfl, rfl⟩ := Prod.mk.inj heq
        have hle : e' ≤ e := inv.expanded_le _ hx (b, e) (hfrontier ▸ List.mem_cons_self)
        exact ⟨e', Nat.le_trans hle he, List.mem_append_left _ hx⟩
      · exact ⟨e, he, List.mem_append_right _ hmem⟩
    | @expand a depth rest hfrontier =>
      rw [hfrontier] at hmem
      rcases List.mem_cons.mp hmem with heq | hmem
      · obtain ⟨rfl, rfl⟩ := Prod.mk.inj heq
        refine ⟨e, he, List.mem_append_left _ ?_⟩
        rw [expand_expanded]
        exact List.mem_append_right _ List.mem_cons_self
      · exact ⟨e, he, List.mem_append_right _ (mem_expand_of_mem_rest hmem)⟩

theorem Inv.skip {rest : List (α × ℕ)} (inv : S.Inv start st)
    (hfrontier : st.frontier = (a, depth) :: rest) (ha : a ∈ st.entities) :
    S.Inv start { st with frontier := rest } := by
  have hknown : ∀ {b d}, st.Known b d → State.Known { st with frontier := rest } b d :=
    fun hb => inv.known_of_move (.skip hfrontier ha) hb
  have hsub : ∀ x ∈ rest, x ∈ st.frontier := fun x hx => hfrontier ▸ List.mem_cons_of_mem _ hx
  constructor
  · exact inv.nodup
  · have hroom := inv.room
    rw [hfrontier, List.length_cons] at hroom
    change (st.expanded.length + rest.length : ℤ) ≤ S.cap
    omega
  · intro x hx
    apply inv.reached
    exact (List.mem_append.mp hx).elim (List.mem_append_left _)
      fun hx => List.mem_append_right _ (hsub x hx)
  · exact hknown inv.startKnown
  · have hsorted := inv.sorted
    rw [hfrontier] at hsorted
    exact hsorted.of_cons
  · exact fun x hx y hy => inv.expanded_le x hx y (hsub y hy)

/-- After an expansion every waiting entry is at the depth of the expanded one or at the next. -/
theorem Inv.level_expand {rest : List (α × ℕ)} (inv : S.Inv start st)
    (hfrontier : st.frontier = (a, depth) :: rest) {x : α × ℕ}
    (hx : x ∈ (S.expand st a depth rest).frontier) : depth ≤ x.2 ∧ x.2 ≤ depth + 1 := by
  have hsorted := inv.sorted
  rw [hfrontier, List.pairwise_cons] at hsorted
  rcases mem_expand_frontier hx with hx | ⟨hx, -⟩
  · exact hsorted.1 x hx
  · omega

theorem Inv.reached_expand {rest : List (α × ℕ)} (inv : S.Inv start st)
    (hfrontier : st.frontier = (a, depth) :: rest) :
    ∀ x ∈ (S.expand st a depth rest).entries, S.Reach start x.2 x.1 := by
  have hreach : S.Reach start depth a :=
    inv.reached (a, depth) (List.mem_append_right _ (hfrontier ▸ List.mem_cons_self))
  intro x hx
  rcases List.mem_append.mp hx with hx | hx
  · rw [expand_expanded, List.mem_append, List.mem_singleton] at hx
    rcases hx with hx | rfl
    · exact inv.reached x (List.mem_append_left _ hx)
    · exact hreach
  · rcases mem_expand_frontier hx with hx | ⟨hdepth, hx⟩
    · exact inv.reached x (List.mem_append_right _ (hfrontier ▸ List.mem_cons_of_mem _ hx))
    · rw [hdepth]
      exact hreach.step hx

theorem Inv.sorted_expand {rest : List (α × ℕ)} (inv : S.Inv start st)
    (hfrontier : st.frontier = (a, depth) :: rest) :
    (S.expand st a depth rest).frontier.Pairwise fun x y => x.2 ≤ y.2 ∧ y.2 ≤ x.2 + 1 := by
  have hsorted := inv.sorted
  rw [hfrontier, List.pairwise_cons] at hsorted
  rw [Search.expand, foldl_offer_frontier, List.pairwise_append]
  refine ⟨hsorted.2, ?_, ?_⟩
  · rw [List.pairwise_map]
    exact List.pairwise_of_forall fun _ _ => ⟨Nat.le_refl _, Nat.le_succ _⟩
  · intro x hx y hy
    obtain ⟨b, -, rfl⟩ := List.mem_map.mp hy
    have hx' := hsorted.1 x hx
    omega

theorem Inv.closed_expand {rest : List (α × ℕ)} (inv : S.Inv start st) (hclosed : S.Closed st)
    (hroom : S.HasRoom start) (hthrough : S.Through start st)
    (hfrontier : st.frontier = (a, depth) :: rest) (hcap : (st.expanded.length : ℤ) < S.cap)
    (ha : a ∉ st.entities) : S.Closed (S.expand st a depth rest) := by
  intro x hx b hb
  rw [expand_expanded, List.mem_append, List.mem_singleton] at hx
  rcases hx with hx | rfl
  · exact inv.known_of_move (.expand hfrontier hcap ha) (hclosed x hx b hb)
  · have hoffered := mem_foldl_offer fun before b after heq =>
      hroom (.expand hthrough hfrontier hcap ha heq)
    rcases hoffered b hb with hb | hb
    · obtain ⟨⟨b', e⟩, hx, rfl⟩ := List.mem_map.mp hb
      have hle : e ≤ depth + 1 := by
        rcases List.mem_append.mp hx with hx | hx
        · exact Nat.le_trans (inv.expanded_le _ hx (a, depth) (hfrontier ▸ List.mem_cons_self))
            (Nat.le_succ _)
        · obtain ⟨-, rfl⟩ := Prod.mk.inj (List.mem_singleton.mp hx)
          exact Nat.le_succ _
      exact ⟨e, hle, List.mem_append_left _ (by simpa using hx)⟩
    · obtain ⟨⟨b', e⟩, hx, rfl⟩ := List.mem_map.mp hb
      exact ⟨e, (inv.level_expand hfrontier hx).2, List.mem_append_right _ hx⟩

theorem Inv.expand {rest : List (α × ℕ)} (inv : S.Inv start st)
    (hfrontier : st.frontier = (a, depth) :: rest) (hcap : (st.expanded.length : ℤ) < S.cap)
    (ha : a ∉ st.entities) : S.Inv start (S.expand st a depth rest) := by
  constructor
  · have hnodup := inv.nodup
    simp only [State.entities, expand_expanded, List.map_append, List.map_cons, List.map_nil]
    rw [List.nodup_append]
    refine ⟨hnodup, List.nodup_singleton a, ?_⟩
    rintro x hx _ hy rfl
    exact ha (List.mem_singleton.mp hy ▸ hx)
  · have hroom := inv.room
    have hlength := @length_expand_frontier _ S _ st a depth rest
    rw [hfrontier, List.length_cons] at hroom
    rw [expand_expanded, List.length_append, List.length_singleton]
    omega
  · exact inv.reached_expand hfrontier
  · exact inv.known_of_move (.expand hfrontier hcap ha) inv.startKnown
  · exact inv.sorted_expand hfrontier
  · intro x hx y hy
    have hy' := inv.level_expand hfrontier hy
    rw [expand_expanded, List.mem_append, List.mem_singleton] at hx
    rcases hx with hx | rfl
    · exact Nat.le_trans (inv.expanded_le x hx (a, depth) (hfrontier ▸ List.mem_cons_self)) hy'.1
    · exact hy'.1

theorem Inv.of_step (inv : S.Inv start st) (h : S.step st = some st') : S.Inv start st' := by
  cases move_of_step h with
  | skip hfrontier ha => exact inv.skip hfrontier ha
  | expand hfrontier hcap ha => exact inv.expand hfrontier hcap ha

variable (S)

/-- The search as a loop: an expansion leaves less room under the cap, a skip shortens the queue. -/
def loop : WhileLoop (State α) (ℕ × ℕ) where
  step := S.step
  rank st := ((S.cap - st.expanded.length).toNat, st.frontier.length)
  descends {st st'} h := by
    cases move_of_step h with
    | skip hfrontier =>
      apply Prod.Lex.right
      rw [hfrontier]
      exact Nat.lt_succ_self _
    | expand hfrontier hcap =>
      apply Prod.Lex.left
      rw [expand_expanded, List.length_append, List.length_singleton]
      change (S.cap - (st.expanded.length + 1 : ℕ)).toNat < (S.cap - st.expanded.length).toNat
      omega

/-- The state in which a search ends. -/
def search (start : α) : State α := S.loop.run (initial start)

variable {S}

omit [DecidableEq α] in
theorem inv_initial (hcap : 1 ≤ S.cap) (start : α) : S.Inv start (initial start) where
  nodup := List.nodup_nil
  room := by simpa [initial] using hcap
  reached x hx := by
    obtain rfl := List.mem_singleton.mp hx
    exact .start
  startKnown := ⟨0, Nat.le_refl 0, List.mem_cons_self⟩
  sorted := List.pairwise_singleton _ _
  expanded_le := nofun

theorem Through.inv (hcap : 1 ≤ S.cap) (h : S.Through start st) : S.Inv start st := by
  induction h with
  | initial => exact inv_initial hcap start
  | step _ hstep ih => exact ih.of_step hstep

theorem Inv.run (inv : S.Inv start st) : S.Inv start (S.loop.run st) :=
  S.loop.run_induct (fun inv h => inv.of_step h) inv

/-- The cap never stops a search while an entry waits. -/
theorem Inv.frontier_run (inv : S.Inv start st) : (S.loop.run st).frontier = [] := by
  have hstop : S.step (S.loop.run st) = none := S.loop.step_run _
  have hroom := inv.run.room
  unfold step at hstop
  split at hstop
  · assumption
  · rename_i a depth rest hfrontier
    rw [hfrontier, List.length_cons] at hroom
    split at hstop
    · omega
    · split at hstop <;> cases hstop

theorem inv_search (hcap : 1 ≤ S.cap) (start : α) : S.Inv start (S.search start) :=
  (inv_initial hcap start).run

theorem frontier_search (hcap : 1 ≤ S.cap) (start : α) : (S.search start).frontier = [] :=
  (inv_initial hcap start).frontier_run

theorem search_of_no_room (hcap : S.cap ≤ 0) (start : α) : S.search start = initial start :=
  S.loop.run_of_none (if_pos hcap)

theorem entries_search (hcap : 1 ≤ S.cap) (start : α) :
    (S.search start).entries = (S.search start).expanded := by
  rw [State.entries, frontier_search hcap, List.append_nil]

theorem mem_entities_of_known (hcap : 1 ≤ S.cap) {d : ℕ}
    (h : (S.search start).Known b d) : ∃ e ≤ d, (b, e) ∈ (S.search start).expanded := by
  obtain ⟨e, he, hmem⟩ := h
  rw [entries_search hcap] at hmem
  exact ⟨e, he, hmem⟩

theorem length_search (hcap : 1 ≤ S.cap) (start : α) :
    ((S.search start).entities.length : ℤ) ≤ S.cap := by
  have hroom := (inv_search hcap start).room
  rw [State.entities, List.length_map]
  omega

theorem start_mem_search (hcap : 1 ≤ S.cap) (start : α) :
    start ∈ (S.search start).entities := by
  obtain ⟨e, -, hmem⟩ := mem_entities_of_known hcap (inv_search hcap start).startKnown
  exact List.mem_map_of_mem hmem

theorem within_of_mem_search (hcap : 1 ≤ S.cap) (hdepth : 0 ≤ S.maxDepth)
    (h : a ∈ (S.search start).entities) : S.Within start a := by
  obtain ⟨⟨a, n⟩, hx, rfl⟩ := List.mem_map.mp h
  exact ⟨n, ((inv_search hcap start).reached _ (List.mem_append_left _ hx)).within hdepth⟩

/-- Where there is room, a search ends with all neighbours of what it expanded known. -/
theorem closed_search (hcap : 1 ≤ S.cap) (hroom : S.HasRoom start) :
    S.Closed (S.search start) := by
  have hkept : S.Through start (S.search start) ∧ S.Closed (S.search start) := by
    apply S.loop.run_induct (P := fun st => S.Through start st ∧ S.Closed st)
    · rintro st st' ⟨hthrough, hclosed⟩ hstep
      have inv := hthrough.inv hcap
      refine ⟨hthrough.step hstep, ?_⟩
      cases move_of_step hstep with
      | skip hfrontier ha =>
        exact fun x hx b hb => inv.known_of_move (.skip hfrontier ha) (hclosed x hx b hb)
      | expand hfrontier hlt ha =>
        exact inv.closed_expand hclosed hroom hthrough hfrontier hlt ha
    · exact ⟨.initial, fun x hx => absurd hx List.not_mem_nil⟩
  exact hkept.2

/-- A search that has room is complete: it expands all that is in reach, each entity at its
distance. -/
theorem known_of_reach (hcap : 1 ≤ S.cap) (hroom : S.HasRoom start) {n : ℕ}
    (h : S.Reach start n a) : ∃ e ≤ n, (a, e) ∈ (S.search start).expanded := by
  induction h with
  | start => exact mem_entities_of_known hcap (inv_search hcap start).startKnown
  | step _ hb ih =>
    obtain ⟨e, he, hmem⟩ := ih
    obtain ⟨hlt, hnext⟩ := mem_successors.mp hb
    have hsucc := mem_successors.mpr ⟨(by omega : ((e : ℕ) : ℤ) < S.maxDepth), hnext⟩
    obtain ⟨e', he', hmem'⟩ := mem_entities_of_known hcap
      (closed_search hcap hroom _ hmem _ hsucc)
    exact ⟨e', by omega, hmem'⟩

theorem mem_search_of_within (hcap : 1 ≤ S.cap) (hroom : S.HasRoom start)
    (h : S.Within start a) : a ∈ (S.search start).entities := by
  obtain ⟨n, hn, hpath⟩ := h
  obtain ⟨e, -, hmem⟩ := known_of_reach hcap hroom (hpath.reach hn)
  exact List.mem_map_of_mem hmem

theorem expanded_prefix_of_move (h : S.Move st st') : st.expanded <+: st'.expanded := by
  cases h with
  | skip => exact List.prefix_refl _
  | expand =>
    rw [expand_expanded]
    exact List.prefix_append ..

theorem expanded_prefix_run (st : State α) : st.expanded <+: (S.loop.run st).expanded := by
  apply S.loop.run_induct (P := fun t => st.expanded <+: t.expanded)
  · intro t t' hprefix h
    exact hprefix.trans (expanded_prefix_of_move (move_of_step h))
  · exact List.prefix_refl _

def afterStart (S : Search α) (start : α) : State α := S.expand (initial start) start 0 []

theorem search_eq_afterStart (hcap : 1 ≤ S.cap) (start : α) :
    S.search start = S.loop.run (S.afterStart start) := by
  apply S.loop.run_of_some
  change S.step (initial start) = _
  rw [step]
  change (if S.cap ≤ (0 : ℕ) then none else _) = _
  rw [if_neg (by omega)]
  exact if_neg List.not_mem_nil

@[simp] theorem afterStart_expanded (start : α) :
    (S.afterStart start).expanded = [(start, 0)] := by
  simp [afterStart, initial]

theorem afterStart_frontier (start : α) :
    (S.afterStart start).frontier =
      (((S.successors start 0).filter (· ≠ start)).take (S.cap - 1).toNat).map (·, 1) := by
  rw [afterStart, expand, foldl_offer_frontier]
  simp [initial, State.entities, room]

/-- What a search keeps once everything that waits is at the depth: it only expands what waits. -/
structure Shallow (S : Search α) (st t : State α) : Prop where
  deep : ∀ x ∈ t.frontier, S.maxDepth ≤ x.2
  expanded : ∃ more, t.expanded = st.expanded ++ more ∧ ∀ x ∈ more, S.maxDepth ≤ x.2
  same : ∀ a, a ∈ t.entities ∨ a ∈ t.waiting ↔ a ∈ st.entities ∨ a ∈ st.waiting

theorem Shallow.of_move {t t' : State α} (h : S.Shallow st t) (move : S.Move t t') :
    S.Shallow st t' := by
  obtain ⟨hdeep, ⟨more, hmore, hall⟩, hsame⟩ := h
  cases move with
  | @skip a depth rest hfrontier ha =>
    refine ⟨fun x hx => hdeep x (hfrontier ▸ List.mem_cons_of_mem _ hx), ⟨more, hmore, hall⟩,
      fun b => ?_⟩
    have hwaiting : t.waiting = a :: rest.map Prod.fst := by simp [State.waiting, hfrontier]
    rw [← hsame b, hwaiting, List.mem_cons]
    constructor
    · rintro (hb | hb)
      · exact Or.inl hb
      · exact Or.inr (Or.inr hb)
    · rintro (hb | rfl | hb)
      · exact Or.inl hb
      · exact Or.inl ha
      · exact Or.inr hb
  | @expand a depth rest hfrontier hcap ha =>
    have hdepth : S.maxDepth ≤ depth := hdeep _ (hfrontier ▸ List.mem_cons_self)
    have hnone : S.expand t a depth rest =
        { t with expanded := t.expanded ++ [(a, depth)], frontier := rest } := by
      rw [Search.expand, successors, if_pos hdepth]
      rfl
    rw [hnone]
    refine ⟨fun x hx => hdeep x (hfrontier ▸ List.mem_cons_of_mem _ hx),
      ⟨more ++ [(a, depth)], by rw [hmore, List.append_assoc], ?_⟩, fun b => ?_⟩
    · intro x hx
      rcases List.mem_append.mp hx with hx | hx
      · exact hall x hx
      · obtain rfl := List.mem_singleton.mp hx
        exact hdepth
    · have hwaiting : t.waiting = a :: rest.map Prod.fst := by simp [State.waiting, hfrontier]
      rw [← hsame b, hwaiting]
      simp only [State.entities, State.waiting, List.map_append, List.map_cons, List.map_nil,
        List.mem_append, List.mem_cons, List.not_mem_nil, or_false]
      exact or_assoc

theorem Inv.run_shallow (inv : S.Inv start st) (hdeep : ∀ x ∈ st.frontier, S.maxDepth ≤ x.2) :
    (∃ more, (S.loop.run st).expanded = st.expanded ++ more ∧ ∀ x ∈ more, S.maxDepth ≤ x.2) ∧
      ∀ a, a ∈ (S.loop.run st).entities ↔ a ∈ st.entities ∨ a ∈ st.waiting := by
  have hshallow : S.Shallow st (S.loop.run st) :=
    S.loop.run_induct (fun h hstep => h.of_move (move_of_step hstep))
      ⟨hdeep, ⟨[], by simp, nofun⟩, fun _ => Iff.rfl⟩
  have hempty : (S.loop.run st).waiting = [] := by simp [State.waiting, inv.frontier_run]
  refine ⟨hshallow.expanded, fun a => ?_⟩
  rw [← hshallow.same a, hempty]
  simp

theorem inv_afterStart (hcap : 1 ≤ S.cap) (start : α) : S.Inv start (S.afterStart start) :=
  (inv_initial hcap start).expand rfl (by change ((0 : ℕ) : ℤ) < _; omega) List.not_mem_nil

/-- When the neighbours of the start are at the depth, the search expands the start and those of
them that the queue has room for. -/
theorem search_shallow (hcap : 1 ≤ S.cap) (start : α)
    (hdeep : S.maxDepth ≤ 1 ∨ (S.successors start 0).filter (· ≠ start) = []) :
    (∃ more, (S.search start).expanded = (start, 0) :: more ∧ ∀ x ∈ more, S.maxDepth ≤ x.2) ∧
      ∀ a, a ∈ (S.search start).entities ↔ a = start ∨
        a ∈ ((S.successors start 0).filter (· ≠ start)).take (S.cap - 1).toNat := by
  have hdeep' : ∀ x ∈ (S.afterStart start).frontier, S.maxDepth ≤ x.2 := by
    intro x hx
    rw [afterStart_frontier] at hx
    obtain ⟨b, hb, rfl⟩ := List.mem_map.mp hx
    rcases hdeep with hdepth | hnil
    · exact hdepth
    · rw [hnil, List.take_nil] at hb
      exact absurd hb List.not_mem_nil
  obtain ⟨⟨more, hmore, hall⟩, hmem⟩ := (inv_afterStart hcap start).run_shallow hdeep'
  rw [search_eq_afterStart hcap]
  refine ⟨⟨more, ?_, hall⟩, fun a => ?_⟩
  · rw [hmore, afterStart_expanded, List.singleton_append]
  · rw [hmem, State.entities, State.waiting, afterStart_expanded, afterStart_frontier,
      List.map_map]
    simp [Function.comp_def]

theorem search_one_level (hcap : 1 ≤ S.cap) (hdepth : S.maxDepth ≤ 1) (start : α) :
    (∃ more, (S.search start).expanded = (start, 0) :: more ∧ ∀ x ∈ more, S.maxDepth ≤ x.2) ∧
      ∀ a, a ∈ (S.search start).entities ↔ a = start ∨
        a ∈ ((S.successors start 0).filter (· ≠ start)).take (S.cap - 1).toNat :=
  search_shallow hcap start (Or.inl hdepth)

theorem start_prefix_search (hcap : 1 ≤ S.cap) (start : α) :
    [(start, 0)] <+: (S.search start).expanded := by
  have hprefix := expanded_prefix_run (S := S) (S.afterStart start)
  rwa [afterStart_expanded, ← search_eq_afterStart hcap] at hprefix

theorem search_two_levels (hcap : 2 ≤ S.cap) (hdepth : 2 ≤ S.maxDepth)
    (h : ∃ b ∈ S.next start, b ≠ start) :
    ∃ b ∈ S.next start, b ≠ start ∧ [(start, 0), (b, 1)] <+: (S.search start).expanded := by
  obtain ⟨b, hb, hne⟩ := h
  have hsucc : S.successors start 0 = S.next start := if_neg (by omega)
  have hnil : (S.next start).filter (· ≠ start) ≠ [] :=
    List.ne_nil_of_mem (List.mem_filter.mpr ⟨hb, by simpa using hne⟩)
  obtain ⟨c, others, hothers⟩ := List.exists_cons_of_ne_nil hnil
  have hfilter : c ∈ (S.next start).filter (· ≠ start) := hothers ▸ List.mem_cons_self
  have hc : c ∈ S.next start := List.mem_of_mem_filter hfilter
  have hcne : c ≠ start := of_decide_eq_true (List.mem_filter.mp hfilter).2
  obtain ⟨room, hroom⟩ : ∃ room, (S.cap - 1).toNat = room + 1 := ⟨(S.cap - 2).toNat, by omega⟩
  have hfrontier : (S.afterStart start).frontier =
      (c, 1) :: (others.take room).map (·, 1) := by
    rw [afterStart_frontier, hsucc, hothers, hroom, List.take_succ_cons, List.map_cons]
  have hstep : S.step (S.afterStart start) =
      some (S.expand (S.afterStart start) c 1 ((others.take room).map (·, 1))) := by
    have hcap' : ¬ S.cap ≤ (S.afterStart start).expanded.length := by
      rw [afterStart_expanded, List.length_singleton]
      omega
    have hmem : c ∉ (S.afterStart start).entities := by
      simpa [State.entities] using hcne
    rw [step, hfrontier]
    simp only [hcap', hmem, if_false]
  refine ⟨c, hc, hcne, ?_⟩
  rw [search_eq_afterStart (by omega), S.loop.run_of_some hstep]
  have hprefix := expanded_prefix_run (S := S)
    (S.expand (S.afterStart start) c 1 ((others.take room).map (·, 1)))
  rwa [expand_expanded, afterStart_expanded] at hprefix

theorem through_one_level (hdepth : S.maxDepth ≤ 1) (h : S.Through start st) :
    st = initial start ∨ ∀ x ∈ st.frontier, S.maxDepth ≤ x.2 := by
  induction h with
  | initial => exact Or.inl rfl
  | step _ hstep ih =>
    right
    intro x hx
    cases move_of_step hstep with
    | skip hfrontier ha =>
      rcases ih with rfl | hdeep
      · exact absurd ha List.not_mem_nil
      · exact hdeep x (hfrontier ▸ List.mem_cons_of_mem _ hx)
    | expand hfrontier =>
      rcases mem_expand_frontier hx with hrest | ⟨hlevel, hsucc⟩
      · rcases ih with rfl | hdeep
        · obtain ⟨-, rfl⟩ := List.cons.inj hfrontier
          exact absurd hrest List.not_mem_nil
        · exact hdeep x (hfrontier ▸ List.mem_cons_of_mem _ hrest)
      · rw [hlevel]
        push_cast
        omega

/-- In a search of one level, what finds no room is in reach and never expanded. -/
theorem lost_of_full (hcap : 1 ≤ S.cap) (hdepth : S.maxDepth ≤ 1) (hoffer : S.Offers start st b)
    (hnew : b ∉ st.entities) (hwait : b ∉ st.waiting)
    (hfull : S.cap ≤ st.expanded.length + st.frontier.length) :
    S.Within start b ∧ b ∉ (S.search start).entities := by
  cases hoffer with
  | @expand st a depth rest before b after hthrough hfrontier _ _ hsucc =>
    have hb : b ∈ S.successors a depth := hsucc ▸ List.mem_append_right _ List.mem_cons_self
    obtain ⟨hlt, hnext⟩ := mem_successors.mp hb
    rcases through_one_level hdepth hthrough with rfl | hdeep
    · obtain ⟨hstart, rfl⟩ := List.cons.inj hfrontier
      obtain ⟨rfl, rfl⟩ := Prod.mk.inj hstart
      refine ⟨⟨1, by omega, .step .start hnext⟩, ?_⟩
      rw [(search_one_level hcap hdepth _).2]
      rintro (rfl | htake)
      · exact hnew (by simp [State.entities])
      · apply hwait
        have hlast : b ∈ (S.afterStart start).waiting := by
          rw [State.waiting, afterStart_frontier, List.map_map]
          simpa [Function.comp_def] using htake
        rw [afterStart, expand, hsucc, List.foldl_append, State.waiting, foldl_offer_frontier,
          room_eq_zero hfull] at hlast
        simpa [State.waiting] using hlast
    · have hlevel := hdeep (a, depth) (hfrontier ▸ List.mem_cons_self)
      omega

/-- There is room when the cap leaves some for all neighbours of what is expanded next. -/
theorem hasRoom_of_le
    (h : ∀ st a depth rest, S.Through start st → st.frontier = (a, depth) :: rest →
      (st.expanded.length + st.frontier.length + (S.successors a depth).length : ℤ) ≤ S.cap) :
    S.HasRoom start := by
  intro st b hoffer _ _
  cases hoffer with
  | @expand st a depth rest before b after hthrough hfrontier _ _ hsucc =>
    have hle := h st a depth rest hthrough hfrontier
    have hlength : (before.foldl (S.offer (depth + 1))
        { st with expanded := st.expanded ++ [(a, depth)], frontier := rest }).frontier.length ≤
        rest.length + before.length := length_foldl_offer before
    rw [hsucc, hfrontier, List.length_append, List.length_cons, List.length_cons] at hle
    rw [foldl_offer_expanded, List.length_append, List.length_singleton]
    omega

theorem hasRoom_one_level (hdepth : S.maxDepth ≤ 1)
    (hcap : (S.successors start 0).length + 1 ≤ S.cap) : S.HasRoom start := by
  apply hasRoom_of_le
  intro st a depth rest hthrough hfrontier
  have hroom := (hthrough.inv (by omega)).room
  rcases through_one_level hdepth hthrough with rfl | hdeep
  · obtain ⟨hstart, -⟩ := List.cons.inj hfrontier
    obtain ⟨rfl, rfl⟩ := Prod.mk.inj hstart
    simp only [initial, List.length_nil, List.length_singleton]
    omega
  · have hlevel : S.maxDepth ≤ depth := hdeep (a, depth) (hfrontier ▸ List.mem_cons_self)
    rw [successors, if_pos hlevel, List.length_nil]
    omega

end Search

end Minsight

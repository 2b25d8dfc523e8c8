import Minsight.Entity.GraphSearch

/-! # When the traversal is complete

An entity that waits twice takes two places under the cap. The traversal returns every entity within
the hops as long as no entity that is met for the first time finds the cap used up.
-/

namespace Minsight

/-- There are at most so many. -/
def AtMost {α : Type} (P : α → Prop) (n : ℤ) : Prop :=
  ∀ l : List α, l.Nodup → (∀ a ∈ l, P a) → (l.length : ℤ) ≤ n

section

variable (store : GraphStore) (order : ReadOrder) (now : Time) (maxHops maxNodes : ℤ)
  (relationTypes : List String) (lower : String → String) (seedType seedKey : String)

/-- The traversal returns every entity within the hops if there are no more than the cap. -/
def Complete : Prop :=
  ∀ seed, seedEntity lower seedType seedKey = some seed →
    AtMost (WithinHops store now relationTypes maxHops seed) maxNodes →
      ∀ e, WithinHops store now relationTypes maxHops seed e →
        nameOf e ∈ (traverseEntityGraph store order now maxHops maxNodes relationTypes lower
          seedType seedKey).names

/-- There are more entities within the hops than the cap, or whenever a relation leads to an entity
that is neither expanded nor waiting, the expanded entities and the waiting entries, repetitions
included, are fewer than the cap. -/
def NobodyTurnedAway : Prop :=
  ∀ seed, seedEntity lower seedType seedKey = some seed →
    ¬ AtMost (WithinHops store now relationTypes maxHops seed) maxNodes ∨
      (graphSearch store order now maxHops maxNodes relationTypes).HasRoom seed

end

section

variable {store : GraphStore} {order : ReadOrder} {now : Time} {maxHops maxNodes : ℤ}
  {relationTypes : List String} {lower : String → String} {seedType seedKey : String}
  {seed : Entity}

theorem one_le_of_atMost (hhops : 0 ≤ maxHops)
    (h : AtMost (WithinHops store now relationTypes maxHops seed) maxNodes) : 1 ≤ maxNodes := by
  have hseed : WithinHops store now relationTypes maxHops seed seed := ⟨0, hhops, .seed⟩
  have hone := h [seed] (List.nodup_singleton seed) (by simpa using hseed)
  simpa using hone

theorem complete_of_nobodyTurnedAway
    (h : NobodyTurnedAway store order now maxHops maxNodes relationTypes lower seedType seedKey) :
    Complete store order now maxHops maxNodes relationTypes lower seedType seedKey := by
  intro seed hseed hmost e he
  have hroom := (h seed hseed).resolve_left (not_not.mpr hmost)
  have hhops : 0 ≤ maxHops := by
    obtain ⟨n, hn, -⟩ := he
    omega
  rw [mem_names hseed]
  exact Search.mem_search_of_within (one_le_of_atMost hhops hmost) hroom (within_iff.mpr he)

theorem nobodyTurnedAway_of_complete (hhops : maxHops ≤ 1)
    (h : Complete store order now maxHops maxNodes relationTypes lower seedType seedKey) :
    NobodyTurnedAway store order now maxHops maxNodes relationTypes lower seedType seedKey := by
  intro seed hseed
  by_cases hmost : AtMost (WithinHops store now relationTypes maxHops seed) maxNodes
  · right
    intro st b hoffer hnew hwait
    by_contra hfull
    have hcap : 1 ≤ maxNodes := by
      cases hoffer with
      | expand _ _ hlt => exact Int.lt_of_le_of_lt (Int.natCast_nonneg _) hlt
    obtain ⟨hwithin, hlost⟩ :=
      Search.lost_of_full hcap hhops hoffer hnew hwait (not_lt.mp hfull)
    have hnamed := h seed hseed hmost b (within_iff.mp hwithin)
    exact hlost ((mem_names hseed).mp hnamed)
  · exact Or.inl hmost

/-- With nobody turned away the traversal is complete; over one hop it is complete only then. -/
theorem traversal_complete_iff (store : GraphStore) (order : ReadOrder) (now : Time)
    (maxHops maxNodes : ℤ) (relationTypes : List String) (lower : String → String)
    (seedType seedKey : String) :
    (NobodyTurnedAway store order now maxHops maxNodes relationTypes lower seedType seedKey →
      Complete store order now maxHops maxNodes relationTypes lower seedType seedKey) ∧
    (maxHops ≤ 1 →
      Complete store order now maxHops maxNodes relationTypes lower seedType seedKey →
      NobodyTurnedAway store order now maxHops maxNodes relationTypes lower seedType seedKey) :=
  ⟨complete_of_nobodyTurnedAway, nobodyTurnedAway_of_complete⟩

end

/-- Two relations between a host and its user turn nobody away. -/
theorem traversal_complete_cycle :
    Complete cycleStore tableOrder 0 1 30 [] String.toLower "host" "a" := by
  apply (traversal_complete_iff ..).1
  intro seed hseed
  obtain rfl : (EntityType.host, "a") = seed :=
    Option.some.inj (Eq.trans (by decide +kernel) hseed)
  exact Or.inr (Search.hasRoom_one_level (by decide) (by decide +kernel))

def parallelStore : GraphStore where
  profiles := []
  relations := [
    { fromEntityType := .host, fromEntityKey := "a", toEntityType := .user, toEntityKey := "u"
      relationType := "owned_by" },
    { fromEntityType := .host, fromEntityKey := "a", toEntityType := .user, toEntityKey := "u"
      relationType := "logs_in" },
    { fromEntityType := .host, fromEntityKey := "a", toEntityType := .user, toEntityKey := "v"
      relationType := "logs_in" }]
  unique := List.nodup_nil

theorem validRelations_parallelStore :
    validRelations parallelStore 0 [] = parallelStore.relations := by
  rw [validRelations, List.filter_eq_self]
  decide

theorem joined_parallelStore {e : Entity} (h : Joined parallelStore 0 [] (.host, "a") e) :
    e ∈ [(EntityType.user, "u"), (.user, "v")] := by
  obtain ⟨rel, hrel, hends⟩ := h
  rw [validRelations_parallelStore] at hrel
  simp only [parallelStore, List.mem_cons, List.not_mem_nil, or_false] at hrel
  rcases hrel with rfl | rfl | rfl <;> rcases hends with ⟨-, rfl⟩ | ⟨-, hto⟩
  all_goals first | decide | exact absurd hto (by decide)

theorem chain_parallelStore {n : ℕ} {e : Entity} (h : Chain parallelStore 0 [] (.host, "a") n e)
    (hn : n ≤ 1) : e ∈ [(EntityType.host, "a"), (.user, "u"), (.user, "v")] := by
  cases h with
  | seed => exact List.mem_cons_self
  | join hchain hjoined =>
    cases hchain with
    | seed => exact List.mem_cons_of_mem _ (joined_parallelStore hjoined)
    | join => omega

/-- The second place of the user leaves no room for the other one. -/
theorem parallel_relations_hide_an_entity :
    ¬ ∀ (store : GraphStore) (order : ReadOrder) (now : Time) (maxHops maxNodes : ℤ)
      (relationTypes : List String) (lower : String → String) (seedType seedKey : String),
      Complete store order now maxHops maxNodes relationTypes lower seedType seedKey := by
  intro h
  have hseed : seedEntity String.toLower "host" "a" = some (.host, "a") := by decide +kernel
  have hmost : AtMost (WithinHops parallelStore 0 [] 1 (.host, "a")) 3 := by
    intro l hnodup hl
    have hsub : l ⊆ [(EntityType.host, "a"), (.user, "u"), (.user, "v")] := by
      intro e he
      obtain ⟨n, hn, hchain⟩ := hl e he
      exact chain_parallelStore hchain (by omega)
    exact_mod_cast (hnodup.subperm hsub).length_le
  have hv : WithinHops parallelStore 0 [] 1 (.host, "a") (.user, "v") := by
    have hlast : parallelStore.relations[2] ∈ validRelations parallelStore 0 [] := by
      rw [validRelations_parallelStore]
      exact List.getElem_mem _
    exact ⟨1, le_refl _, .join .seed ⟨_, hlast, Or.inl ⟨rfl, rfl⟩⟩⟩
  have hnamed := h parallelStore tableOrder 0 1 3 [] String.toLower "host" "a" _ hseed hmost _ hv
  rw [mem_names hseed, (Search.search_one_level (by decide) (by decide) _).2] at hnamed
  exact absurd hnamed (by decide +kernel)

end Minsight

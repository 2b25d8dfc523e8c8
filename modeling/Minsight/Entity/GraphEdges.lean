import Minsight.Entity.GraphCompleteness

/-! # The edges of a traversal

Expanding an entity adds an edge for each relation it reads. A relation between two expanded
entities is read at both ends, and the cap can leave out an entity whose edge is already there.
-/

namespace Minsight

/-- Each edge is that of a valid relation, each relation has at most one, and its ends are nodes. -/
structure EntityGraphResult.WellFormed (result : EntityGraphResult)
    (relations : List EntityRelation) : Prop where
  edges : List.Subperm result.edges (relations.map edgeOf)
  source : ∀ edge ∈ result.edges, (edge.fromType, edge.fromKey) ∈ result.names
  target : ∀ edge ∈ result.edges, (edge.toType, edge.toKey) ∈ result.names

theorem edgeOf_ends {rel rel' : EntityRelation} (h : edgeOf rel = edgeOf rel') :
    rel.fromEntity = rel'.fromEntity ∧ rel.toEntity = rel'.toEntity := by
  have hfrom := congrArg GraphEdge.fromType h
  have hto := congrArg GraphEdge.toType h
  constructor
  · exact Prod.ext (value_injective hfrom) (congrArg GraphEdge.fromKey h)
  · exact Prod.ext (value_injective hto) (congrArg GraphEdge.toKey h)

theorem touches_of_edgeOf {rel rel' : EntityRelation} {e : Entity} (h : edgeOf rel = edgeOf rel')
    (htouch : rel'.Touches e) : rel.Touches e := by
  obtain ⟨hfrom, hto⟩ := edgeOf_ends h
  rw [EntityRelation.Touches, hfrom, hto]
  exact htouch

theorem touches_otherEnd (e : Entity) (rel : EntityRelation) : rel.Touches (otherEnd e rel) := by
  unfold otherEnd
  split_ifs with hfrom
  · exact Or.inr rfl
  · exact Or.inl rfl

section

variable {store : GraphStore} {order : ReadOrder} {now : Time} {maxHops maxNodes : ℤ}
  {relationTypes : List String}

theorem usableRelations_perm (e : Entity) :
    (usableRelations store order now relationTypes e).Perm
      ((validRelations store now relationTypes).filter fun rel => rel.Touches e) := by
  rw [usableRelations, selectRelations, validRelations, List.filter_filter]
  apply ((order.perm _ _).filter _).trans
  rw [List.filter_filter]
  apply List.Perm.of_eq
  apply List.filter_congr
  intro rel _
  rw [← Bool.and_assoc, Bool.and_comm (relationInForce now rel), Bool.and_assoc]

theorem count_edges {e : Entity} {rel : EntityRelation} (htouch : rel.Touches e) :
    ((usableRelations store order now relationTypes e).map edgeOf).count (edgeOf rel) =
      ((validRelations store now relationTypes).map edgeOf).count (edgeOf rel) := by
  rw [((usableRelations_perm e).map edgeOf).count_eq, List.count_eq_countP, List.count_eq_countP,
    List.countP_map, List.countP_map, List.countP_filter]
  apply List.countP_congr
  intro rel' _
  simp only [Function.comp_apply, Bool.and_eq_true, beq_iff_eq, decide_eq_true_eq,
    and_iff_left_iff_imp]
  intro h
  exact touches_of_edgeOf h htouch

end

section

variable (store : GraphStore) (order : ReadOrder) (now : Time) (maxHops maxNodes : ℤ)
  (relationTypes : List String) (lower : String → String) (seedType seedKey : String)

/-- The other ends of the relations of an entity, as they are read, itself left out. -/
def otherEntities (e : Entity) : List Entity :=
  ((usableRelations store order now relationTypes e).map (otherEnd e)).filter (· ≠ e)

/-- No relation is read, or all of them are from the seed to itself, or there is one hop and the
neighbours are all among the first entries that the cap leaves room for. -/
def OneLevelFits : Prop :=
  ∀ seed, seedEntity lower seedType seedKey = some seed →
    maxHops ≤ 0 ∨ maxNodes ≤ 0 ∨ otherEntities store order now relationTypes seed = [] ∨
      maxHops = 1 ∧ ∀ e ∈ otherEntities store order now relationTypes seed,
        e ∈ (otherEntities store order now relationTypes seed).take (maxNodes - 1).toNat

end

section

variable {store : GraphStore} {order : ReadOrder} {now : Time} {maxHops maxNodes : ℤ}
  {relationTypes : List String} {lower : String → String} {seedType seedKey : String}
  {seed : Entity}

theorem mem_otherEntities {e b : Entity} :
    b ∈ otherEntities store order now relationTypes e ↔
      (∃ rel ∈ usableRelations store order now relationTypes e, otherEnd e rel = b) ∧ b ≠ e := by
  simp [otherEntities]

theorem successors_otherEntities (hhops : 0 < maxHops) :
    ((graphSearch store order now maxHops maxNodes relationTypes).successors seed 0).filter
      (· ≠ seed) = otherEntities store order now relationTypes seed := by
  rw [Search.successors, if_neg (by change ¬ maxHops ≤ _; omega)]
  rfl

theorem ends_iff {P : Entity → Prop} {rel : EntityRelation} {e : Entity}
    (htouch : rel.Touches e) :
    P rel.fromEntity ∧ P rel.toEntity ↔ P e ∧ P (otherEnd e rel) := by
  unfold otherEnd
  split_ifs with hfrom
  · rw [hfrom]
  · rw [htouch.resolve_left hfrom]
    exact and_comm

/-- The ends of the edges of an entity's relations are returned if it and its neighbours are. -/
theorem edges_between_names (hseed : seedEntity lower seedType seedKey = some seed) {e : Entity}
    {rel : EntityRelation} (hrel : rel ∈ usableRelations store order now relationTypes e) :
    let result := traverseEntityGraph store order now maxHops maxNodes relationTypes lower seedType
      seedKey
    let found := (graphSearch store order now maxHops maxNodes relationTypes).search seed
    (((edgeOf rel).fromType, (edgeOf rel).fromKey) ∈ result.names ∧
      ((edgeOf rel).toType, (edgeOf rel).toKey) ∈ result.names) ↔
      e ∈ found.entities ∧ otherEnd e rel ∈ found.entities := by
  intro result found
  have hends := ends_iff (P := (· ∈ found.entities)) (mem_usableRelations.mp hrel).2
  exact (and_congr (mem_names hseed) (mem_names hseed)).trans hends

theorem edgesOf_cons (x : Entity × ℕ) (xs : List (Entity × ℕ)) (h : (x.2 : ℤ) < maxHops) :
    edgesOf store order now maxHops relationTypes (x :: xs) =
      (usableRelations store order now relationTypes x.1).map edgeOf
        ++ edgesOf store order now maxHops relationTypes xs := by
  rw [edgesOf, List.flatMap_cons, if_neg (by omega)]
  rfl

theorem edgesOf_deep {xs : List (Entity × ℕ)} (h : ∀ x ∈ xs, maxHops ≤ x.2) :
    edgesOf store order now maxHops relationTypes xs = [] := by
  rw [edgesOf, List.flatMap_eq_nil_iff]
  intro x hx
  exact if_pos (h x hx)

theorem shallow_of_one_level (hhops : 0 < maxHops)
    (hlevel : maxHops = 1 ∨ otherEntities store order now relationTypes seed = []) :
    maxHops ≤ 1 ∨ ((graphSearch store order now maxHops maxNodes relationTypes).successors seed
      0).filter (· ≠ seed) = [] := by
  rw [successors_otherEntities hhops]
  exact hlevel.imp_left le_of_eq

theorem edges_one_level (hseed : seedEntity lower seedType seedKey = some seed)
    (hhops : 0 < maxHops) (hnodes : 1 ≤ maxNodes)
    (hlevel : maxHops = 1 ∨ otherEntities store order now relationTypes seed = []) :
    (traverseEntityGraph store order now maxHops maxNodes relationTypes lower seedType
      seedKey).edges = (usableRelations store order now relationTypes seed).map edgeOf := by
  obtain ⟨⟨more, hmore, hall⟩, -⟩ := Search.search_shallow
    (S := graphSearch store order now maxHops maxNodes relationTypes) hnodes seed
    (shallow_of_one_level hhops hlevel)
  have hdeep : ∀ x ∈ more, maxHops ≤ x.2 := hall
  rw [(traverseEntityGraph_eq hseed).2, hmore, edgesOf_cons _ _ (by exact_mod_cast hhops),
    edgesOf_deep hdeep, List.append_nil]

/-- The edges of the seed's relations are well-formed if the neighbours are expanded. -/
theorem wellFormed_seed_iff (hseed : seedEntity lower seedType seedKey = some seed)
    (hhops : 0 < maxHops) (hnodes : 1 ≤ maxNodes)
    (hlevel : maxHops = 1 ∨ otherEntities store order now relationTypes seed = []) :
    (traverseEntityGraph store order now maxHops maxNodes relationTypes lower seedType
      seedKey).WellFormed (validRelations store now relationTypes) ↔
    ∀ e ∈ otherEntities store order now relationTypes seed,
      e ∈ (otherEntities store order now relationTypes seed).take (maxNodes - 1).toNat := by
  obtain ⟨-, hmem⟩ := Search.search_shallow
    (S := graphSearch store order now maxHops maxNodes relationTypes) hnodes seed
    (shallow_of_one_level hhops hlevel)
  rw [successors_otherEntities hhops] at hmem
  have hedges : (traverseEntityGraph store order now maxHops maxNodes relationTypes lower seedType
      seedKey).edges = (usableRelations store order now relationTypes seed).map edgeOf :=
    edges_one_level hseed hhops hnodes hlevel
  constructor
  · intro h e he
    obtain ⟨⟨rel, hrel, rfl⟩, hne⟩ := mem_otherEntities.mp he
    have hedge : edgeOf rel ∈ (traverseEntityGraph store order now maxHops maxNodes relationTypes
        lower seedType seedKey).edges := hedges ▸ List.mem_map_of_mem hrel
    have hends := (edges_between_names hseed hrel).mp ⟨h.source _ hedge, h.target _ hedge⟩
    exact ((hmem _).mp hends.2).resolve_left hne
  · intro h
    have hends : ∀ rel ∈ usableRelations store order now relationTypes seed,
        otherEnd seed rel ∈ ((graphSearch store order now maxHops maxNodes relationTypes).search
          seed).entities := by
      intro rel hrel
      rw [hmem]
      by_cases hne : otherEnd seed rel = seed
      · exact Or.inl hne
      · exact Or.inr (h _ (mem_otherEntities.mpr ⟨⟨rel, hrel, rfl⟩, hne⟩))
    constructor
    · rw [hedges]
      exact ((usableRelations_perm seed).map edgeOf).subperm.trans
        (List.filter_sublist.map edgeOf).subperm
    all_goals
      intro edge hedge
      rw [hedges] at hedge
      obtain ⟨rel, hrel, rfl⟩ := List.mem_map.mp hedge
      have hnamed := (edges_between_names hseed hrel).mpr
        ⟨Search.start_mem_search hnodes seed, hends rel hrel⟩
    · exact hnamed.1
    · exact hnamed.2

theorem not_wellFormed_of_cap_one (hseed : seedEntity lower seedType seedKey = some seed)
    (hhops : 0 < maxHops) (hnodes : maxNodes = 1)
    (hother : otherEntities store order now relationTypes seed ≠ []) :
    ¬ (traverseEntityGraph store order now maxHops maxNodes relationTypes lower seedType
      seedKey).WellFormed (validRelations store now relationTypes) := by
  intro h
  obtain ⟨b, hb⟩ := List.exists_mem_of_ne_nil _ hother
  obtain ⟨⟨rel, hrel, rfl⟩, hne⟩ := mem_otherEntities.mp hb
  have hcap : 1 ≤ (graphSearch store order now maxHops maxNodes relationTypes).cap :=
    le_of_eq hnodes.symm
  obtain ⟨rest, hrest⟩ := Search.start_prefix_search hcap seed
  have hedge : edgeOf rel ∈ (traverseEntityGraph store order now maxHops maxNodes relationTypes
      lower seedType seedKey).edges := by
    rw [(traverseEntityGraph_eq hseed).2, ← hrest, List.singleton_append,
      edgesOf_cons _ _ (by exact_mod_cast hhops)]
    exact List.mem_append_left _ (List.mem_map_of_mem hrel)
  have hends := (edges_between_names hseed hrel).mp ⟨h.source _ hedge, h.target _ hedge⟩
  have hpair : [seed, otherEnd seed rel].Nodup := by simpa using hne.symm
  have hsub := hpair.subperm (List.cons_subset.mpr ⟨hends.1, List.cons_subset.mpr
    ⟨hends.2, List.nil_subset _⟩⟩)
  have hlength : ((graphSearch store order now maxHops maxNodes relationTypes).search
      seed).entities.length ≤ maxNodes := Search.length_search hcap seed
  have htwo := hsub.length_le
  rw [List.length_cons, List.length_singleton] at htwo
  omega

theorem not_wellFormed_of_two_hops (hseed : seedEntity lower seedType seedKey = some seed)
    (hhops : 2 ≤ maxHops) (hnodes : 1 ≤ maxNodes)
    (hother : otherEntities store order now relationTypes seed ≠ []) :
    ¬ (traverseEntityGraph store order now maxHops maxNodes relationTypes lower seedType
      seedKey).WellFormed (validRelations store now relationTypes) := by
  by_cases hone : maxNodes = 1
  · exact not_wellFormed_of_cap_one hseed (by omega) hone hother
  · intro h
    obtain ⟨b, hb⟩ := List.exists_mem_of_ne_nil _ hother
    obtain ⟨⟨rel, hrel, rfl⟩, hne⟩ := mem_otherEntities.mp hb
    have hcap : 2 ≤ (graphSearch store order now maxHops maxNodes relationTypes).cap := by
      change 2 ≤ maxNodes
      omega
    have hnext : ∃ b ∈ (graphSearch store order now maxHops maxNodes relationTypes).next seed,
        b ≠ seed := ⟨_, List.mem_map_of_mem hrel, hne⟩
    obtain ⟨b, hb, -, hprefix⟩ := Search.search_two_levels hcap hhops hnext
    obtain ⟨rel', hrel', rfl⟩ := List.mem_map.mp hb
    obtain ⟨hvalid, htouch⟩ := mem_usableRelations.mp hrel'
    obtain ⟨rest, hrest⟩ := hprefix
    -- the seed and the neighbour each read the edge as often as the relations have it
    have hcount := h.edges.count_le (edgeOf rel')
    rw [(traverseEntityGraph_eq hseed).2, ← hrest, List.cons_append, List.cons_append,
      edgesOf_cons _ _ (by omega), edgesOf_cons _ _ (by change ((1 : ℕ) : ℤ) < _; omega),
      List.count_append, List.count_append, count_edges htouch,
      count_edges (touches_otherEnd seed rel')] at hcount
    have hpos : 0 < ((validRelations store now relationTypes).map edgeOf).count (edgeOf rel') :=
      List.count_pos_iff.mpr (List.mem_map_of_mem hvalid)
    omega

theorem wellFormed_of_no_edges {result : EntityGraphResult} {relations : List EntityRelation}
    (h : result.edges = []) : result.WellFormed relations := by
  constructor
  · rw [h]
    exact List.nil_subperm
  all_goals
    intro edge hedge
    rw [h] at hedge
    exact absurd hedge List.not_mem_nil

theorem edges_of_no_room (hseed : seedEntity lower seedType seedKey = some seed)
    (h : maxHops ≤ 0 ∨ maxNodes ≤ 0) :
    (traverseEntityGraph store order now maxHops maxNodes relationTypes lower seedType
      seedKey).edges = [] := by
  rw [(traverseEntityGraph_eq hseed).2]
  rcases h with hhops | hnodes
  · exact edgesOf_deep fun x _ => by omega
  · rw [Search.search_of_no_room hnodes]
    rfl

end

/-- The edges are well-formed exactly if one level is read, and all of it fits. -/
theorem edges_wellFormed_iff (store : GraphStore) (order : ReadOrder) (now : Time)
    (maxHops maxNodes : ℤ) (relationTypes : List String) (lower : String → String)
    (seedType seedKey : String) :
    (traverseEntityGraph store order now maxHops maxNodes relationTypes lower seedType
      seedKey).WellFormed (validRelations store now relationTypes) ↔
      OneLevelFits store order now maxHops maxNodes relationTypes lower seedType seedKey := by
  cases hseed : seedEntity lower seedType seedKey with
  | none =>
    constructor
    · intro _ seed h
      rw [hseed] at h
      cases h
    · intro _
      apply wellFormed_of_no_edges
      rw [traverseEntityGraph, hseed]
  | some seed =>
    constructor
    · intro h seed' hseed'
      obtain rfl := Option.some.inj (hseed.symm.trans hseed')
      by_contra hcon
      simp only [not_or, not_le, not_and] at hcon
      obtain ⟨hhops, hnodes, hother, hfits⟩ := hcon
      have hone : maxHops = 1 := by
        by_contra hne
        exact not_wellFormed_of_two_hops hseed (by omega) (by omega) hother h
      exact hfits hone
        ((wellFormed_seed_iff hseed hhops (by omega) (Or.inl hone)).mp h)
    · intro h
      by_cases hno : maxHops ≤ 0 ∨ maxNodes ≤ 0
      · exact wellFormed_of_no_edges (edges_of_no_room hseed hno)
      · simp only [not_or, not_le] at hno
        rcases h seed hseed with hhops | hnodes | hother | ⟨hone, hfits⟩
        · omega
        · omega
        · apply (wellFormed_seed_iff hseed hno.1 (by omega) (Or.inr hother)).mpr
          rw [hother]
          exact List.forall_mem_nil _
        · exact (wellFormed_seed_iff hseed hno.1 (by omega) (Or.inl hone)).mpr hfits

/-- A host and its user, joined once. -/
def singleStore : GraphStore where
  profiles := []
  relations := [
    { fromEntityType := .host, fromEntityKey := "a", toEntityType := .user, toEntityKey := "u"
      relationType := "owned_by" }]
  unique := List.nodup_nil

/-- Over two hops the relation is read at the host and at the user. -/
theorem two_hops_repeat_an_edge :
    ¬ ∀ (store : GraphStore) (order : ReadOrder) (now : Time) (maxHops maxNodes : ℤ)
      (relationTypes : List String) (lower : String → String) (seedType seedKey : String),
      (traverseEntityGraph store order now maxHops maxNodes relationTypes lower seedType
        seedKey).WellFormed (validRelations store now relationTypes) := by
  intro h
  have hseed : seedEntity String.toLower "host" "a" = some (.host, "a") := by decide +kernel
  have hother : otherEntities singleStore tableOrder 0 [] (.host, "a") = [(.user, "u")] := by
    decide +kernel
  have hsome : otherEntities singleStore tableOrder 0 [] (.host, "a") ≠ [] := by
    rw [hother]
    exact List.cons_ne_nil _ _
  have hwell := h singleStore tableOrder 0 2 30 [] String.toLower "host" "a"
  exact not_wellFormed_of_two_hops hseed (by decide) (by decide) hsome hwell

end Minsight

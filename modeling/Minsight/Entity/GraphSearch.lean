import Minsight.Entity.Graph

/-! # The traversal as a search

The traversal is a search over entities whose neighbours are the other ends of the relations in
force. The search tells the entities that are expanded, with their depths; the nodes and the edges
of the result follow from them.
-/

namespace Minsight

theorem nodeId_injective : Function.Injective nodeId := by
  rintro ⟨t, k⟩ ⟨t', k'⟩ h
  have hchars := congrArg String.toList h
  cases t <;> cases t' <;> simp [nodeId, EntityType.value] at hchars ⊢ <;>
    exact String.ext hchars

section

variable (store : GraphStore) (order : ReadOrder) (now : Time) (maxHops maxNodes : ℤ)
  (relationTypes : List String)

/-- The relations of an entity that the traversal uses, as it reads them. -/
def usableRelations (e : Entity) : List EntityRelation :=
  (selectRelations store order relationTypes e).filter (relationInForce now)

def otherEnd (e : Entity) (rel : EntityRelation) : Entity :=
  if rel.fromEntity = e then rel.toEntity else rel.fromEntity

def edgeOf (rel : EntityRelation) : GraphEdge where
  fromType := rel.fromEntityType.value
  fromKey := rel.fromEntityKey
  toType := rel.toEntityType.value
  toKey := rel.toEntityKey
  relationType := rel.relationType
  confidence := rel.confidence

def graphSearch : Search Entity where
  next e := (usableRelations store order now relationTypes e).map (otherEnd e)
  maxDepth := maxHops
  cap := maxNodes

def edgesOf (expanded : List (Entity × ℕ)) : List GraphEdge :=
  expanded.flatMap fun x =>
    if maxHops ≤ x.2 then [] else (usableRelations store order now relationTypes x.1).map edgeOf

/-- A state of the traversal with these edges and a state of the search that agree. -/
structure Mirrors (edges : List GraphEdge) (st : Traversal) (t : Search.State Entity) : Prop where
  nodes : st.nodes = t.entities.map fun e => (nodeId e, graphNode store e)
  frontier : st.frontier = t.frontier
  edges : st.edges = edges

variable {store order now maxHops maxNodes relationTypes}

theorem mem_selectRelations {e : Entity} {rel : EntityRelation} :
    rel ∈ selectRelations store order relationTypes e ↔ rel ∈ store.relations ∧ rel.Touches e ∧
      (relationTypes.isEmpty || relationTypes.contains rel.relationType) = true := by
  rw [selectRelations, (order.perm _ _).mem_iff, List.mem_filter, Bool.and_eq_true,
    decide_eq_true_eq]

section

variable {edges : List GraphEdge} {st : Traversal} {t : Search.State Entity}

theorem Mirrors.mem_visited (h : Mirrors store edges st t) (e : Entity) :
    nodeId e ∈ st.visited ↔ e ∈ t.entities := by
  have hvisited : st.visited = t.entities.map nodeId := by
    rw [← st.keys, h.nodes, List.map_map]
    rfl
  rw [hvisited, List.mem_map_of_injective nodeId_injective]

theorem Mirrors.length_nodes (h : Mirrors store edges st t) :
    st.nodes.length = t.expanded.length := by
  rw [h.nodes, List.length_map, Search.State.entities, List.length_map]

theorem readRelation_edge {e : Entity} {rel : EntityRelation} (htouch : rel.Touches e) :
    (if rel.fromEntity = e then
      { fromType := e.1.value, fromKey := e.2, toType := (otherEnd e rel).1.value
        toKey := (otherEnd e rel).2, relationType := rel.relationType
        confidence := rel.confidence }
    else
      { fromType := (otherEnd e rel).1.value, fromKey := (otherEnd e rel).2, toType := e.1.value
        toKey := e.2, relationType := rel.relationType, confidence := rel.confidence } :
      GraphEdge) = edgeOf rel := by
  unfold otherEnd
  split_ifs with hfrom
  · subst hfrom
    rfl
  · obtain rfl := htouch.resolve_left hfrom
    rfl

theorem readRelation_of_force {e : Entity} {depth : ℕ} {rel : EntityRelation}
    (hforce : relationInForce now rel = true) (htouch : rel.Touches e) :
    readRelation now maxNodes e depth st rel =
      if nodeId (otherEnd e rel) ∉ st.visited ∧
          (st.nodes.length + st.frontier.length : ℤ) < maxNodes then
        { st with edges := st.edges ++ [edgeOf rel]
                  frontier := st.frontier ++ [(otherEnd e rel, depth + 1)] }
      else { st with edges := st.edges ++ [edgeOf rel] } := by
  rw [readRelation, hforce, if_neg (by decide), ← readRelation_edge htouch]
  rfl

/-- Reading a relation in force offers its other end to the search, and adds its edge. -/
theorem Mirrors.read {e : Entity} {depth : ℕ} {rel : EntityRelation} (h : Mirrors store edges st t)
    (hforce : relationInForce now rel = true) (htouch : rel.Touches e) :
    Mirrors store (edges ++ [edgeOf rel]) (readRelation now maxNodes e depth st rel)
      ((graphSearch store order now maxHops maxNodes relationTypes).offer (depth + 1) t
        (otherEnd e rel)) := by
  have hvisited := h.mem_visited (otherEnd e rel)
  rw [readRelation_of_force hforce htouch, Search.offer, h.length_nodes, h.frontier]
  have hcap : (graphSearch store order now maxHops maxNodes relationTypes).cap = maxNodes := rfl
  rw [hcap]
  by_cases hmem : otherEnd e rel ∈ t.entities
  · rw [if_pos hmem, if_neg fun hand => hand.1 (hvisited.mpr hmem)]
    exact ⟨h.nodes, rfl, by rw [← h.edges]⟩
  · by_cases hroom : (t.expanded.length + t.frontier.length : ℤ) < maxNodes
    · rw [if_neg hmem, if_pos hroom, if_pos ⟨fun hv => hmem (hvisited.mp hv), hroom⟩]
      exact ⟨h.nodes, rfl, by rw [← h.edges]⟩
    · rw [if_neg hmem, if_neg hroom, if_neg fun hand => hroom hand.2]
      exact ⟨h.nodes, rfl, by rw [← h.edges]⟩

theorem Mirrors.foldl_read {e : Entity} {depth : ℕ} {rels : List EntityRelation}
    (h : Mirrors store edges st t) (htouch : ∀ rel ∈ rels, rel.Touches e) :
    Mirrors store (edges ++ (rels.filter (relationInForce now)).map edgeOf)
      (rels.foldl (readRelation now maxNodes e depth) st)
      (((rels.filter (relationInForce now)).map (otherEnd e)).foldl
        ((graphSearch store order now maxHops maxNodes relationTypes).offer (depth + 1)) t) := by
  induction rels generalizing edges st t with
  | nil => simpa using h
  | cons rel rels ih =>
    rw [List.forall_mem_cons] at htouch
    cases hforce : relationInForce now rel with
    | true =>
      have hread : Mirrors store (edges ++ [edgeOf rel])
          (readRelation now maxNodes e depth st rel)
          ((graphSearch store order now maxHops maxNodes relationTypes).offer (depth + 1) t
            (otherEnd e rel)) := h.read hforce htouch.1
      have hrest := ih hread htouch.2
      rw [List.append_assoc] at hrest
      rw [List.filter_cons_of_pos hforce, List.map_cons, List.map_cons, List.foldl_cons,
        List.foldl_cons]
      exact hrest
    | false =>
      have hskip : readRelation now maxNodes e depth st rel = st := by
        rw [readRelation, hforce, if_pos (by decide)]
      rw [List.filter_cons_of_neg (by simp [hforce]), List.foldl_cons, hskip]
      exact ih h htouch.2

theorem edgesOf_append (xs ys : List (Entity × ℕ)) :
    edgesOf store order now maxHops relationTypes (xs ++ ys) =
      edgesOf store order now maxHops relationTypes xs
        ++ edgesOf store order now maxHops relationTypes ys := by
  simp [edgesOf]

def InStep (store : GraphStore) (order : ReadOrder) (now : Time) (maxHops : ℤ)
    (relationTypes : List String) (st : Traversal) (t : Search.State Entity) : Prop :=
  Mirrors store (edgesOf store order now maxHops relationTypes t.expanded) st t

theorem InStep.visit {e : Entity} {depth : ℕ} {rest : List (Entity × ℕ)}
    (h : InStep store order now maxHops relationTypes st t) :
    Mirrors store (edgesOf store order now maxHops relationTypes t.expanded)
      (st.visit store e rest)
      { t with expanded := t.expanded ++ [(e, depth)], frontier := rest } where
  nodes := by simp [Traversal.visit, h.nodes, Search.State.entities]
  frontier := rfl
  edges := h.edges

theorem InStep.step (h : InStep store order now maxHops relationTypes st t) :
    Option.Rel (InStep store order now maxHops relationTypes)
      (traverseStep store order now maxHops maxNodes relationTypes st)
      ((graphSearch store order now maxHops maxNodes relationTypes).step t) := by
  have hcap : (graphSearch store order now maxHops maxNodes relationTypes).cap = maxNodes := rfl
  rw [traverseStep, Search.step, h.frontier, h.length_nodes]
  cases hfrontier : t.frontier with
  | nil => exact .none
  | cons x rest =>
    obtain ⟨e, depth⟩ := x
    dsimp only
    rw [hcap]
    by_cases hroom : (t.expanded.length : ℤ) < maxNodes
    · rw [if_neg (not_not.mpr hroom), if_neg (not_le.mpr hroom)]
      by_cases hmem : e ∈ t.entities
      · rw [if_pos ((h.mem_visited e).mpr hmem), if_pos hmem]
        exact .some ⟨h.nodes, rfl, h.edges⟩
      · rw [if_neg fun hv => hmem ((h.mem_visited e).mp hv), if_neg hmem]
        have hvisit : Mirrors store (edgesOf store order now maxHops relationTypes t.expanded)
            (st.visit store e rest)
            { t with expanded := t.expanded ++ [(e, depth)], frontier := rest } := h.visit
        by_cases hdeep : maxHops ≤ depth
        · rw [if_pos hdeep]
          apply Option.Rel.some
          have hnone : (graphSearch store order now maxHops maxNodes relationTypes).successors e
            depth = [] := if_pos hdeep
          have hedges : edgesOf store order now maxHops relationTypes [(e, depth)] = [] := by
            simp [edgesOf, hdeep]
          rw [InStep, Search.expand_expanded, edgesOf_append, Search.expand, hnone, hedges,
            List.append_nil]
          exact hvisit
        · rw [if_neg hdeep]
          apply Option.Rel.some
          have hnext : (graphSearch store order now maxHops maxNodes relationTypes).successors e
            depth = (usableRelations store order now relationTypes e).map (otherEnd e) :=
              if_neg hdeep
          have hedges : edgesOf store order now maxHops relationTypes [(e, depth)] =
              (usableRelations store order now relationTypes e).map edgeOf := by
            simp [edgesOf, hdeep]
          rw [InStep, Search.expand_expanded, edgesOf_append, Search.expand, hnext, hedges]
          exact hvisit.foldl_read fun rel hrel => (mem_selectRelations.mp hrel).2.1
    · rw [if_pos hroom, if_pos (not_lt.mp hroom)]
      exact .none

end

/-- The search expands the entities of the nodes, and its edges are those of the result. -/
theorem traverseEntityGraph_eq {lower : String → String} {seedType seedKey : String}
    {seed : Entity} (hseed : seedEntity lower seedType seedKey = some seed) :
    let result := traverseEntityGraph store order now maxHops maxNodes relationTypes lower seedType
      seedKey
    let found := (graphSearch store order now maxHops maxNodes relationTypes).search seed
    result.nodes = found.entities.map (graphNode store) ∧
      result.edges = edgesOf store order now maxHops relationTypes found.expanded := by
  intro result found
  have hstart : InStep store order now maxHops relationTypes { frontier := [(seed, 0)] }
      (Search.initial seed) := ⟨rfl, rfl, rfl⟩
  have hend : InStep store order now maxHops relationTypes
      ((traverseLoop store order now maxHops maxNodes relationTypes).run
        { frontier := [(seed, 0)] }) found :=
    WhileLoop.run_lockstep _ (graphSearch store order now maxHops maxNodes relationTypes).loop
      (fun h => h.step) hstart
  have hresult : result = traverseEntityGraph store order now maxHops maxNodes relationTypes lower
      seedType seedKey := rfl
  rw [traverseEntityGraph, hseed] at hresult
  rw [hresult]
  refine ⟨?_, hend.edges⟩
  dsimp only
  rw [hend.nodes, List.map_map]
  rfl

end

section

variable (store : GraphStore) (now : Time) (relationTypes : List String)

/-- The relations in force that pass the filter. -/
def validRelations : List EntityRelation :=
  store.relations.filter fun rel =>
    relationInForce now rel && (relationTypes.isEmpty || relationTypes.contains rel.relationType)

/-- Two entities are joined by a valid relation, in either direction. -/
def Joined (a b : Entity) : Prop :=
  ∃ rel ∈ validRelations store now relationTypes,
    rel.fromEntity = a ∧ rel.toEntity = b ∨ rel.fromEntity = b ∧ rel.toEntity = a

inductive Chain (seed : Entity) : ℕ → Entity → Prop
  | seed : Chain seed 0 seed
  | join {n a b} : Chain seed n a → Joined store now relationTypes a b → Chain seed (n + 1) b

/-- Entities within so many relations of the seed. -/
def WithinHops (maxHops : ℤ) (seed e : Entity) : Prop :=
  ∃ n : ℕ, (n : ℤ) ≤ maxHops ∧ Chain store now relationTypes seed n e

variable {store now relationTypes} {order : ReadOrder} {maxHops maxNodes : ℤ} {seed : Entity}

theorem mem_usableRelations {e : Entity} {rel : EntityRelation} :
    rel ∈ usableRelations store order now relationTypes e ↔
      rel ∈ validRelations store now relationTypes ∧ rel.Touches e := by
  simp only [usableRelations, validRelations, List.mem_filter, mem_selectRelations,
    Bool.and_eq_true]
  tauto

theorem mem_next {a b : Entity} :
    b ∈ (graphSearch store order now maxHops maxNodes relationTypes).next a ↔
      Joined store now relationTypes a b := by
  simp only [graphSearch, List.mem_map, mem_usableRelations]
  constructor
  · rintro ⟨rel, ⟨hrel, htouch⟩, rfl⟩
    refine ⟨rel, hrel, ?_⟩
    unfold otherEnd
    split_ifs with hfrom
    · exact Or.inl ⟨hfrom, rfl⟩
    · exact Or.inr ⟨rfl, htouch.resolve_left hfrom⟩
  · rintro ⟨rel, hrel, ⟨rfl, rfl⟩ | ⟨rfl, rfl⟩⟩
    · exact ⟨rel, ⟨hrel, Or.inl rfl⟩, if_pos rfl⟩
    · refine ⟨rel, ⟨hrel, Or.inr rfl⟩, ?_⟩
      unfold otherEnd
      split_ifs with hloop
      · exact hloop.symm
      · rfl

theorem path_iff_chain {n : ℕ} {e : Entity} :
    (graphSearch store order now maxHops maxNodes relationTypes).Path seed n e ↔
      Chain store now relationTypes seed n e := by
  constructor
  · intro h
    induction h with
    | start => exact .seed
    | step _ hb ih => exact ih.join (mem_next.mp hb)
  · intro h
    induction h with
    | seed => exact .start
    | join _ hb ih => exact ih.step (mem_next.mpr hb)

theorem within_iff {e : Entity} :
    (graphSearch store order now maxHops maxNodes relationTypes).Within seed e ↔
      WithinHops store now relationTypes maxHops seed e := by
  simp only [Search.Within, WithinHops, path_iff_chain]
  rfl

end

theorem value_injective : Function.Injective EntityType.value := by
  intro t t' h
  cases t <;> cases t' <;> first | rfl | exact absurd h (by decide)

def nameOf (e : Entity) : String × String := (e.1.value, e.2)

theorem nameOf_injective : Function.Injective nameOf := by
  rintro ⟨t, k⟩ ⟨t', k'⟩ h
  obtain ⟨ht, hk⟩ := Prod.mk.inj h
  exact Prod.ext (value_injective ht) hk

def EntityGraphResult.names (result : EntityGraphResult) : List (String × String) :=
  result.nodes.map fun n => (n.entityType, n.entityKey)

@[simp] theorem graphNode_name (store : GraphStore) (e : Entity) :
    ((graphNode store e).entityType, (graphNode store e).entityKey) = nameOf e := by
  unfold graphNode
  split <;> rfl

section

variable {store : GraphStore} {order : ReadOrder} {now : Time} {maxHops maxNodes : ℤ}
  {relationTypes : List String} {lower : String → String} {seedType seedKey : String}
  {seed : Entity}

theorem names_traverseEntityGraph (hseed : seedEntity lower seedType seedKey = some seed) :
    (traverseEntityGraph store order now maxHops maxNodes relationTypes lower seedType
      seedKey).names =
      ((graphSearch store order now maxHops maxNodes relationTypes).search seed).entities.map
        nameOf := by
  rw [EntityGraphResult.names, (traverseEntityGraph_eq hseed).1, List.map_map]
  apply List.map_congr_left
  intro e _
  exact graphNode_name store e

theorem mem_names (hseed : seedEntity lower seedType seedKey = some seed) {e : Entity} :
    nameOf e ∈ (traverseEntityGraph store order now maxHops maxNodes relationTypes lower seedType
      seedKey).names ↔
      e ∈ ((graphSearch store order now maxHops maxNodes relationTypes).search seed).entities := by
  rw [names_traverseEntityGraph hseed, List.mem_map_of_injective nameOf_injective]

end

/-- The traversal ends, and returns distinct entities within the hops, at most as many as asked
for, the seed among them. -/
theorem traversal_sound (store : GraphStore) (order : ReadOrder) (now : Time)
    (maxHops maxNodes : ℤ) (relationTypes : List String) (lower : String → String)
    (seedType seedKey : String) (seed : Entity)
    (hseed : seedEntity lower seedType seedKey = some seed) (hhops : 0 ≤ maxHops)
    (hnodes : 1 ≤ maxNodes) :
    let result := traverseEntityGraph store order now maxHops maxNodes relationTypes lower seedType
      seedKey
    let loop := traverseLoop store order now maxHops maxNodes relationTypes
    (∃ n st, loop.steps n { frontier := [(seed, 0)] } = some st ∧ loop.step st = none ∧
      result.nodes = st.nodes.map Prod.snd) ∧
      (result.nodes.length : ℤ) ≤ maxNodes ∧ result.names.Nodup ∧ nameOf seed ∈ result.names ∧
      ∀ name ∈ result.names, ∃ e, nameOf e = name ∧
        WithinHops store now relationTypes maxHops seed e := by
  intro result loop
  have hnames : result.names =
      ((graphSearch store order now maxHops maxNodes relationTypes).search seed).entities.map
        nameOf := names_traverseEntityGraph hseed
  refine ⟨?_, ?_, ?_, ?_, ?_⟩
  · obtain ⟨n, hn⟩ := loop.exists_steps_run { frontier := [(seed, 0)] }
    refine ⟨n, _, hn, loop.step_run _, ?_⟩
    have hresult : result = traverseEntityGraph store order now maxHops maxNodes relationTypes
        lower seedType seedKey := rfl
    rw [traverseEntityGraph, hseed] at hresult
    rw [hresult]
  · rw [(traverseEntityGraph_eq hseed).1, List.length_map]
    exact Search.length_search hnodes seed
  · rw [hnames]
    exact (Search.inv_search hnodes seed).nodup.map nameOf_injective
  · rw [mem_names hseed]
    exact Search.start_mem_search hnodes seed
  · intro name hname
    rw [hnames] at hname
    obtain ⟨e, he, rfl⟩ := List.mem_map.mp hname
    exact ⟨e, rfl, within_iff.mp (Search.within_of_mem_search hnodes hhops he)⟩

/-- A host and its user, joined in both directions. -/
def cycleStore : GraphStore where
  profiles := []
  relations := [
    { fromEntityType := .host, fromEntityKey := "a", toEntityType := .user, toEntityKey := "u"
      relationType := "owned_by" },
    { fromEntityType := .user, fromEntityKey := "u", toEntityType := .host, toEntityKey := "a"
      relationType := "logs_in" }]
  unique := List.nodup_nil

/-- The rows come in the order of the table. -/
def tableOrder : ReadOrder where
  arrange _ rows := rows
  perm _ _ := List.Perm.refl _

theorem traversal_sound_cycle :
    seedEntity String.toLower "HOST" " a " = some (.host, "a") ∧
    let result := traverseEntityGraph cycleStore tableOrder 0 2 30 [] String.toLower "HOST" " a "
    result.nodes.length ≤ 30 ∧ nameOf (.host, "a") ∈ result.names := by
  have hseed : seedEntity String.toLower "HOST" " a " = some (.host, "a") := by decide +kernel
  obtain ⟨-, hlength, -, hmem, -⟩ := traversal_sound cycleStore tableOrder 0 2 30 []
    String.toLower "HOST" " a " _ hseed (by decide) (by decide)
  exact ⟨hseed, by exact_mod_cast hlength, hmem⟩

end Minsight

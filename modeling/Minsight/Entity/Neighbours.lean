import Minsight.Entity.GraphEdges

/-! # The neighbours of an entity

The neighbours are read off the edges of a traversal of one hop. Which end of an edge is the
neighbour is told by comparing keys, so an entity of another type with the same key is taken for the
seed.
-/

namespace Minsight

/-- An item of `one_hop_neighbors`. -/
structure Neighbor where
  entityType : String
  entityKey : String
  relationType : String
  confidence : ℚ
  deriving DecidableEq

def Neighbor.name (item : Neighbor) : String × String := (item.entityType, item.entityKey)

/-- What `one_hop_neighbors` makes of an edge. -/
def neighborOf (entityKey : String) (edge : GraphEdge) : Neighbor where
  entityType := if edge.fromKey = entityKey then edge.toType else edge.fromType
  entityKey := if edge.fromKey = entityKey then edge.toKey else edge.fromKey
  relationType := edge.relationType
  confidence := edge.confidence

section

variable (store : GraphStore) (order : ReadOrder) (now : Time) (lower : String → String)
  (entityType : EntityType) (entityKey : String) (limit : ℤ)

/-- `one_hop_neighbors` -/
def oneHopNeighbors : List Neighbor :=
  let graph := traverseEntityGraph store order now 1 (limit + 1) [] lower entityType.value entityKey
  sliceList limit (graph.edges.map (neighborOf entityKey))

def listedRelations (seed : Entity) : List EntityRelation :=
  (usableRelations store order now [] seed).take limit.toNat

/-- The item is the end other than the seed of a valid relation of the seed, and the seed itself
only where the relation is from the seed to itself. -/
structure Names (seed : Entity) (item : Neighbor) (rel : EntityRelation) : Prop where
  valid : rel ∈ validRelations store now []
  ends : rel.fromEntity = seed ∧ item.name = nameOf rel.toEntity ∨
    rel.toEntity = seed ∧ item.name = nameOf rel.fromEntity
  itself : item.name = nameOf seed → rel.fromEntity = seed ∧ rel.toEntity = seed
  relationType : item.relationType = rel.relationType
  confidence : item.confidence = rel.confidence

/-- The items name the other ends of the first relations of the seed, one for one, and of all of
them when the limit does not bind. -/
structure NamesNeighbors (seed : Entity) (items : List Neighbor) : Prop where
  first : List.Forall₂ (Names store now seed) items (listedRelations store order now limit seed)
  all : (((validRelations store now []).filter fun rel => rel.Touches seed).length : ℤ) ≤ limit →
    ∀ rel ∈ validRelations store now [], rel.Touches seed →
      ∃ item ∈ items, Names store now seed item rel

/-- A relation of the seed starts at the seed exactly if it starts at the key, or it is from the
seed to itself. -/
def KeyTells (seed : Entity) (rel : EntityRelation) : Prop :=
  (rel.fromEntity = seed ↔ rel.fromEntityKey = entityKey) ∨
    rel.fromEntity = seed ∧ rel.toEntity = seed

instance (seed : Entity) (rel : EntityRelation) : Decidable (KeyTells entityKey seed rel) :=
  inferInstanceAs (Decidable (_ ∨ _))

/-- The key tells the ends of all relations that are listed, and there is none when it is blank. -/
def KeysTellApart : Prop :=
  let seed := (entityType, strip entityKey)
  (strip entityKey = "" → listedRelations store order now limit seed = []) ∧
    ∀ rel ∈ listedRelations store order now limit seed, KeyTells entityKey seed rel

end

section

variable {store : GraphStore} {order : ReadOrder} {now : Time} {lower : String → String}
  {entityType : EntityType} {entityKey : String} {limit : ℤ} {seed : Entity}

theorem ofValue_value (t : EntityType) : EntityType.ofValue t.value = some t := by
  cases t <;> rfl

theorem seedEntity_value (hlower : ∀ t : EntityType, lower t.value = t.value) :
    seedEntity lower entityType.value entityKey =
      if strip entityKey = "" then none else some (entityType, strip entityKey) := by
  rw [seedEntity, hlower, ofValue_value]

theorem oneHopNeighbors_eq (hseed : seedEntity lower entityType.value entityKey = some seed) :
    oneHopNeighbors store order now lower entityType entityKey limit =
      (listedRelations store order now limit seed).map
        fun rel => neighborOf entityKey (edgeOf rel) := by
  rw [oneHopNeighbors, listedRelations, List.map_take]
  by_cases hlimit : 0 ≤ limit
  · rw [sliceList, if_pos hlimit, edges_one_level hseed (by decide) (by omega) (Or.inl rfl),
      List.map_map]
    rfl
  · rw [edges_of_no_room hseed (Or.inr (by omega)), Int.toNat_of_nonpos (by omega), List.take_zero,
      List.map_nil, sliceList, if_neg hlimit]
    exact List.take_nil

theorem oneHopNeighbors_of_none (hseed : seedEntity lower entityType.value entityKey = none) :
    oneHopNeighbors store order now lower entityType entityKey limit = [] := by
  have hedges : (traverseEntityGraph store order now 1 (limit + 1) [] lower entityType.value
      entityKey).edges = [] := by
    rw [traverseEntityGraph, hseed]
  rw [oneHopNeighbors, hedges, List.map_nil, sliceList]
  split_ifs
  · exact List.take_nil
  · exact List.take_nil

theorem mem_listedRelations {rel : EntityRelation}
    (h : rel ∈ listedRelations store order now limit seed) :
    rel ∈ validRelations store now [] ∧ rel.Touches seed :=
  mem_usableRelations.mp (List.mem_of_mem_take h)

/-- What is read off a relation of the seed is its other end exactly if the key tells. -/
theorem names_iff {rel : EntityRelation} (hvalid : rel ∈ validRelations store now [])
    (htouch : rel.Touches seed) :
    Names store now seed (neighborOf entityKey (edgeOf rel)) rel ↔ KeyTells entityKey seed rel := by
  have hname : (neighborOf entityKey (edgeOf rel)).name =
      nameOf (if rel.fromEntityKey = entityKey then rel.toEntity else rel.fromEntity) := by
    by_cases hkey : rel.fromEntityKey = entityKey
    · rw [if_pos hkey]
      simp only [Neighbor.name, neighborOf, edgeOf, hkey, if_true]
      rfl
    · rw [if_neg hkey]
      simp only [Neighbor.name, neighborOf, edgeOf, hkey, if_false]
      rfl
  constructor
  · intro h
    have hitself := h.itself
    rw [hname, nameOf_injective.eq_iff] at hitself
    unfold KeyTells
    split_ifs at hitself with hkey
    · rcases htouch with hfrom | hto
      · exact Or.inl (iff_of_true hfrom hkey)
      · exact Or.inl (iff_of_true (hitself hto).1 hkey)
    · by_cases hfrom : rel.fromEntity = seed
      · exact Or.inr (hitself hfrom)
      · exact Or.inl (iff_of_false hfrom hkey)
  · intro h
    refine ⟨hvalid, ?_, ?_, rfl, rfl⟩
    all_goals
      rw [hname]
      simp only [nameOf_injective.eq_iff]
      unfold KeyTells at h
      split_ifs with hkey
    · have hfrom : rel.fromEntity = seed := h.elim (fun hiff => hiff.mpr hkey) And.left
      exact Or.inl ⟨hfrom, rfl⟩
    · by_cases hfrom : rel.fromEntity = seed
      · exact Or.inr ⟨(h.resolve_left fun hiff => hkey (hiff.mp hfrom)).2, rfl⟩
      · exact Or.inr ⟨htouch.resolve_left hfrom, rfl⟩
    · intro hto
      exact ⟨h.elim (fun hiff => hiff.mpr hkey) And.left, hto⟩
    · intro hfrom
      exact h.resolve_left fun hiff => hkey (hiff.mp hfrom)

theorem exists_of_forall₂ {α β : Type} {R : α → β → Prop} {l : List α} {m : List β}
    (h : List.Forall₂ R l m) {b : β} (hb : b ∈ m) : ∃ a ∈ l, R a b := by
  induction h with
  | nil => exact absurd hb List.not_mem_nil
  | @cons a b' l m hab _ ih =>
    rcases List.mem_cons.mp hb with rfl | hb
    · exact ⟨a, List.mem_cons_self, hab⟩
    · obtain ⟨a', ha', hab'⟩ := ih hb
      exact ⟨a', List.mem_cons_of_mem _ ha', hab'⟩

theorem mem_listedRelations_of_length
    (hlimit : (((validRelations store now []).filter fun rel => rel.Touches seed).length : ℤ) ≤
      limit) {rel : EntityRelation} (hvalid : rel ∈ validRelations store now [])
    (htouch : rel.Touches seed) : rel ∈ listedRelations store order now limit seed := by
  have hlength : (usableRelations store order now [] seed).length =
      ((validRelations store now []).filter fun rel => rel.Touches seed).length :=
    (usableRelations_perm seed).length_eq
  rw [listedRelations, List.take_of_length_le (by omega)]
  exact mem_usableRelations.mpr ⟨hvalid, htouch⟩

theorem namesNeighbors_iff {items : List Neighbor} :
    NamesNeighbors store order now limit seed items ↔
      List.Forall₂ (Names store now seed) items (listedRelations store order now limit seed) := by
  constructor
  · exact NamesNeighbors.first
  · intro h
    refine ⟨h, fun hlimit rel hvalid htouch => ?_⟩
    exact exists_of_forall₂ h (mem_listedRelations_of_length hlimit hvalid htouch)

end

/-- The neighbours name the other ends exactly if the key tells the ends of the relations. -/
theorem neighbors_named_iff (store : GraphStore) (order : ReadOrder) (now : Time)
    (lower : String → String) (hlower : ∀ t : EntityType, lower t.value = t.value)
    (entityType : EntityType) (entityKey : String) (limit : ℤ) :
    NamesNeighbors store order now limit (entityType, strip entityKey)
        (oneHopNeighbors store order now lower entityType entityKey limit) ↔
      KeysTellApart store order now entityType entityKey limit := by
  rw [namesNeighbors_iff, KeysTellApart]
  by_cases hblank : strip entityKey = ""
  · have hseed : seedEntity lower entityType.value entityKey = none := by
      rw [seedEntity_value hlower, if_pos hblank]
    rw [oneHopNeighbors_of_none hseed, List.forall₂_nil_left_iff]
    constructor
    · intro h
      refine ⟨fun _ => h, fun rel hrel => ?_⟩
      rw [h] at hrel
      exact absurd hrel List.not_mem_nil
    · rintro ⟨h, -⟩
      exact h hblank
  · have hseed : seedEntity lower entityType.value entityKey =
        some (entityType, strip entityKey) := by
      rw [seedEntity_value hlower, if_neg hblank]
    rw [oneHopNeighbors_eq hseed, List.forall₂_map_left_iff, List.forall₂_same]
    simp only [hblank, false_implies, true_and]
    apply forall₂_congr
    intro rel hrel
    obtain ⟨hvalid, htouch⟩ := mem_listedRelations hrel
    exact names_iff hvalid htouch

theorem toLower_value (t : EntityType) : String.toLower t.value = t.value := by
  cases t <;> decide +kernel

/-- The keys of a host and its users differ. -/
theorem neighbors_named_host :
    NamesNeighbors singleStore tableOrder 0 8 (.host, "a")
      (oneHopNeighbors singleStore tableOrder 0 String.toLower .host "a" 8) := by
  apply (neighbors_named_iff singleStore tableOrder 0 String.toLower toLower_value .host "a" 8).mpr
  constructor
  · intro hblank
    exact absurd hblank (by decide)
  · decide +kernel

def sameKeyStore : GraphStore where
  profiles := []
  relations := [
    { fromEntityType := .user, fromEntityKey := "alice", toEntityType := .host
      toEntityKey := "alice", relationType := "logs_in" }]
  unique := List.nodup_nil

/-- The host is listed as its own neighbour. -/
theorem same_key_is_taken_for_the_seed :
    ¬ ∀ (store : GraphStore) (order : ReadOrder) (now : Time) (lower : String → String)
      (_ : ∀ t : EntityType, lower t.value = t.value) (entityType : EntityType)
      (entityKey : String) (limit : ℤ), strip entityKey = entityKey → entityKey ≠ "" →
      NamesNeighbors store order now limit (entityType, entityKey)
        (oneHopNeighbors store order now lower entityType entityKey limit) := by
  intro h
  have hnames := h sameKeyStore tableOrder 0 String.toLower toLower_value .host "alice" 8
    (by decide) (by decide)
  have hseed : seedEntity String.toLower EntityType.host.value "alice" = some (.host, "alice") := by
    decide +kernel
  have hlisted : listedRelations sameKeyStore tableOrder 0 8 (.host, "alice") =
      sameKeyStore.relations := rfl
  have hfirst := hnames.first
  rw [oneHopNeighbors_eq hseed, hlisted, List.forall₂_map_left_iff, List.forall₂_same] at hfirst
  have hitem := hfirst _ List.mem_cons_self
  exact absurd (hitem.itself rfl).1 (by decide)

end Minsight

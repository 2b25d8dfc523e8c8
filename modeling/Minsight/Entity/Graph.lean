import Minsight.Entity.RelationImport
import Minsight.Foundation.Worklist

/-! # Traversing the entity graph

The traversal expands entities from a queue and reads the relations of each. An entity may wait more
than once: only what is expanded is checked before it is put in the queue.
-/

namespace Minsight

abbrev Entity := EntityType × String

structure AssetProfile extends EntityProfile where
  displayName : Option String := none
  ownerTeam : Option String := none
  metadata : Json := .obj []

def AssetProfile.entity (profile : AssetProfile) : Entity :=
  (profile.entityType, profile.entityKey)

/-- The tables a traversal reads. -/
structure GraphStore where
  profiles : List AssetProfile := []
  relations : List EntityRelation := []
  /-- `uq_entity_profiles_type_key` -/
  unique : (profiles.map AssetProfile.entity).Nodup := by decide

/-- The order in which the database returns the relations of an entity. -/
structure ReadOrder where
  arrange : Entity → List EntityRelation → List EntityRelation
  perm : ∀ e rows, (arrange e rows).Perm rows

namespace EntityRelation

variable (rel : EntityRelation)

def fromEntity : Entity := (rel.fromEntityType, rel.fromEntityKey)

def toEntity : Entity := (rel.toEntityType, rel.toEntityKey)

def Touches (e : Entity) : Prop := rel.fromEntity = e ∨ rel.toEntity = e

instance (e : Entity) : Decidable (rel.Touches e) := inferInstanceAs (Decidable (_ ∨ _))

end EntityRelation

def nodeId (e : Entity) : String := e.1.value ++ ":" ++ e.2

structure GraphNode where
  entityType : String
  entityKey : String
  displayName : Option String := none
  ownerTeam : Option String := none
  metadata : Json := .obj []

structure GraphEdge where
  fromType : String
  fromKey : String
  toType : String
  toKey : String
  relationType : String
  confidence : ℚ
  deriving DecidableEq

structure EntityGraphResult where
  nodes : List GraphNode := []
  edges : List GraphEdge := []
  summary : String := ""

/-- `build_graph_summary` -/
def buildGraphSummary (nodes : List GraphNode) (edges : List GraphEdge)
    (seedType seedKey : String) : String :=
  if edges.isEmpty then "No entity relations found for " ++ seedType ++ ":" ++ seedKey ++ "."
  else
    takeText 800 (joinText " "
      (["Graph from " ++ seedType ++ ":" ++ seedKey ++ ": " ++ toString nodes.length ++ " nodes, "
          ++ toString edges.length ++ " edges."]
        ++ (edges.take 8).map (fun edge =>
          edge.fromType ++ ":" ++ edge.fromKey ++ " -[" ++ edge.relationType ++ "]-> "
            ++ edge.toType ++ ":" ++ edge.toKey)
        ++ if 8 < edges.length then
            ["... and " ++ toString (edges.length - 8) ++ " more edges."] else []))

/-- The variables of the traversal. The nodes are a dict whose keys are the visited ids. -/
structure Traversal where
  nodes : List (String × GraphNode) := []
  edges : List GraphEdge := []
  visited : List String := []
  frontier : List (Entity × ℕ)
  keys : nodes.map Prod.fst = visited := by rfl

section

variable (store : GraphStore) (order : ReadOrder) (now : Time) (maxHops maxNodes : ℤ)
  (relationTypes : List String)

def graphNode (e : Entity) : GraphNode :=
  match store.profiles.find? (·.entity = e) with
  | some profile =>
    { entityType := e.1.value, entityKey := e.2, displayName := profile.displayName
      ownerTeam := profile.ownerTeam, metadata := profile.metadata }
  | none => { entityType := e.1.value, entityKey := e.2 }

def selectRelations (e : Entity) : List EntityRelation :=
  order.arrange e (store.relations.filter fun rel =>
    rel.Touches e && (relationTypes.isEmpty || relationTypes.contains rel.relationType))

def readRelation (e : Entity) (depth : ℕ) (st : Traversal) (rel : EntityRelation) : Traversal :=
  if !relationInForce now rel then st
  else
    let neighbor := if rel.fromEntity = e then rel.toEntity else rel.fromEntity
    let edge : GraphEdge :=
      if rel.fromEntity = e then
        { fromType := e.1.value, fromKey := e.2, toType := neighbor.1.value, toKey := neighbor.2
          relationType := rel.relationType, confidence := rel.confidence }
      else
        { fromType := neighbor.1.value, fromKey := neighbor.2, toType := e.1.value, toKey := e.2
          relationType := rel.relationType, confidence := rel.confidence }
    let st := { st with edges := st.edges ++ [edge] }
    if nodeId neighbor ∉ st.visited ∧ (st.nodes.length + st.frontier.length : ℤ) < maxNodes then
      { st with frontier := st.frontier ++ [(neighbor, depth + 1)] }
    else st

def Traversal.visit (st : Traversal) (e : Entity) (rest : List (Entity × ℕ)) : Traversal :=
  { nodes := st.nodes ++ [(nodeId e, graphNode store e)]
    edges := st.edges
    visited := st.visited ++ [nodeId e]
    frontier := rest
    keys := by simp [st.keys] }

/-- One round of the loop; `none` when it ends. -/
def traverseStep (st : Traversal) : Option Traversal :=
  match st.frontier with
  | [] => none
  | (e, depth) :: rest =>
    if ¬ (st.nodes.length : ℤ) < maxNodes then none
    else if nodeId e ∈ st.visited then some { st with frontier := rest }
    else
      let st := st.visit store e rest
      if maxHops ≤ depth then some st
      else
        some ((selectRelations store order relationTypes e).foldl
          (readRelation now maxNodes e depth) st)

@[simp] theorem readRelation_nodes (e : Entity) (depth : ℕ) (st : Traversal)
    (rel : EntityRelation) : (readRelation now maxNodes e depth st rel).nodes = st.nodes := by
  unfold readRelation
  dsimp only
  split_ifs <;> rfl

@[simp] theorem foldl_readRelation_nodes (e : Entity) (depth : ℕ) (rels : List EntityRelation)
    (st : Traversal) :
    (rels.foldl (readRelation now maxNodes e depth) st).nodes = st.nodes := by
  induction rels generalizing st with
  | nil => rfl
  | cons rel rels ih => rw [List.foldl_cons, ih, readRelation_nodes]

/-- The `while` loop: a visit brings the number of nodes closer to its cap. -/
def traverseLoop : WhileLoop Traversal (ℕ × ℕ) where
  step := traverseStep store order now maxHops maxNodes relationTypes
  rank st := ((maxNodes - st.nodes.length).toNat, st.frontier.length)
  descends {st st'} h := by
    unfold traverseStep at h
    split at h
    · cases h
    · rename_i e depth rest hfrontier
      split at h
      · cases h
      · rename_i hcap
        have hvisit : ((maxNodes - (st.nodes.length + 1 : ℕ)).toNat : ℕ) <
            (maxNodes - st.nodes.length).toNat := by omega
        split at h
        · obtain rfl := Option.some.inj h
          apply Prod.Lex.right
          rw [hfrontier]
          exact Nat.lt_succ_self _
        · have hnodes : st'.nodes.length = st.nodes.length + 1 := by
            dsimp only at h
            split at h
            · obtain rfl := Option.some.inj h
              simp [Traversal.visit]
            · obtain rfl := Option.some.inj h
              simp [Traversal.visit]
          apply Prod.Lex.left
          rw [hnodes]
          exact hvisit

/-- The entity to start from, when its type is known and its key not blank. -/
def seedEntity (lower : String → String) (seedEntityType seedEntityKey : String) : Option Entity :=
  match EntityType.ofValue (lower seedEntityType) with
  | none => none
  | some seedType =>
    if strip seedEntityKey = "" then none else some (seedType, strip seedEntityKey)

/-- `traverse_entity_graph`, where no relation types mean no filter. -/
def traverseEntityGraph (lower : String → String) (seedEntityType seedEntityKey : String) :
    EntityGraphResult :=
  match seedEntity lower seedEntityType seedEntityKey with
  | none => { summary := "Invalid seed entity." }
  | some seed =>
    let st := (traverseLoop store order now maxHops maxNodes relationTypes).run
      { frontier := [(seed, 0)] }
    { nodes := st.nodes.map Prod.snd
      edges := st.edges
      summary := buildGraphSummary (st.nodes.map Prod.snd) st.edges seed.1.value seed.2 }

end

end Minsight

import Minsight.Foundation.IsoTime
import Minsight.Foundation.Text
import Minsight.Model.World

/-! # Import of entity relations

One relation is read from a record of a file and written over the edge of the same name, or added.
-/

namespace Minsight

/-- A time as it reads, and its offset from UTC when it is aware of one. -/
abbrev Datetime := Time × Option Time

structure RelationLib where
  rt : Runtime
  /-- `float(value)`; a number that is not finite is `none`. -/
  float : Json → Except Exn (Option ℚ)
  /-- `repr(text)` -/
  repr : String → String

structure RelationRecord where
  fromEntityType : EntityType
  fromEntityKey : String
  toEntityType : EntityType
  toEntityKey : String
  relationType : String
  confidence : ℚ
  source : String
  metadata : Json
  validFrom : Option Datetime
  validUntil : Option Datetime

/-- A row of `entity_relations`, whose times have no offset. -/
structure EntityRelation where
  fromEntityType : EntityType
  fromEntityKey : String
  toEntityType : EntityType
  toEntityKey : String
  relationType : String
  confidence : ℚ := 1
  source : String := "seed"
  metadata : Json := .obj []
  validFrom : Option Time := none
  validUntil : Option Time := none

def requiredFields : List String :=
  ["from_entity_type", "from_entity_key", "to_entity_type", "to_entity_key", "relation_type"]

/-- `str(data.get(key) or default)` -/
def textOr (rt : Runtime) (data : Json) (key default : String) : String :=
  match (data.get? key).filter Json.truthy with
  | some value => rt.str value
  | none => default

section

variable (lib : RelationLib)

/-- `_parse_entity_type` -/
def parseEntityType (raw : Json) : Except Exn EntityType :=
  match EntityType.ofValue (lib.rt.lower (strip (lib.rt.str raw))) with
  | some entityType => .ok entityType
  | none => .error (.valueError ("invalid entity_type: " ++ lib.rt.str raw))

/-- The text that `_parse_datetime` reads, in which a last `Z` is written as an offset. -/
def isoText (raw : Json) : List Char :=
  let text := (strip (lib.rt.str raw)).toList
  if text.getLast? = some 'Z' then text.dropLast ++ "+00:00".toList else text

/-- The value of a field, unless it is `None` or the empty text. -/
def givenTime : Option Json → Option Json
  | none | some .null | some (.str "") => none
  | some value => some value

/-- `_parse_datetime` -/
def parseDatetime (raw : Option Json) : Except Exn (Option Datetime) :=
  match givenTime raw with
  | none => .ok none
  | some value =>
    match fromIsoFormat (isoText lib value) with
    | some d => .ok (some d)
    | none => .error (.valueError
        ("Invalid isoformat string: " ++ lib.repr (String.ofList (isoText lib value))))

/-- `line 7: text` -/
def lineError (lineNo : ℕ) (text : String) : Exn :=
  .valueError ("line " ++ toString lineNo ++ ": " ++ text)

/-- `parse_relation_record` -/
def parseRelationRecord (data : Json) (lineNo : ℕ) : Except Exn RelationRecord := do
  let missing := requiredFields.filter fun f => strip (textOr lib.rt data f "") = ""
  if missing ≠ [] then
    .error (lineError lineNo ("missing fields ["
      ++ joinText ", " (missing.map fun f => "'" ++ f ++ "'") ++ "]"))
  else
    let confidence ← lib.float ((data.get? "confidence").getD (.float 1))
    match confidence.filter fun q => 0 ≤ q && q ≤ 1 with
    | none => .error (lineError lineNo "confidence must be 0-1")
    | some confidence =>
      let metadata := ((data.get? "metadata").filter Json.truthy).getD (.obj [])
      if !metadata.isObj then .error (lineError lineNo "metadata must be object")
      else
        let text key := strip (textOr lib.rt data key "")
        let fromEntityType ← parseEntityType lib ((data.get? "from_entity_type").getD .null)
        let toEntityType ← parseEntityType lib ((data.get? "to_entity_type").getD .null)
        let validFrom ← parseDatetime lib (data.get? "valid_from")
        let validUntil ← parseDatetime lib (data.get? "valid_until")
        pure {
          fromEntityType
          fromEntityKey := text "from_entity_key"
          toEntityType
          toEntityKey := text "to_entity_key"
          relationType := text "relation_type"
          confidence
          source := takeText 64 (strip (textOr lib.rt data "source" "import"))
          metadata
          validFrom
          validUntil }

end

/-- The edge has the ends and the type of the record. -/
def RelationRecord.names (record : RelationRecord) (rel : EntityRelation) : Bool :=
  rel.fromEntityType == record.fromEntityType && rel.fromEntityKey == record.fromEntityKey
    && rel.toEntityType == record.toEntityType && rel.toEntityKey == record.toEntityKey
    && rel.relationType == record.relationType

/-- A nullable time column, in which `driver` writes the times. -/
def storeTime (driver : Datetime → Except Exn Time) : Option Datetime → Except Exn (Option Time)
  | none => .ok none
  | some d => (driver d).map some

/-- `upsert_entity_relation`, and the flush of the row; true when a row was added. -/
def upsertEntityRelation (driver : Datetime → Except Exn Time) (record : RelationRecord)
    (relations : Rows EntityRelation) : Except Exn (Bool × Rows EntityRelation) :=
  match relations.select fun _ rel => record.names rel with
  | [] => do
    let validFrom ← storeTime driver record.validFrom
    let validUntil ← storeTime driver record.validUntil
    pure (true, relations ++ [{
      fromEntityType := record.fromEntityType
      fromEntityKey := record.fromEntityKey
      toEntityType := record.toEntityType
      toEntityKey := record.toEntityKey
      relationType := record.relationType
      confidence := record.confidence
      source := record.source
      metadata := record.metadata
      validFrom
      validUntil }])
  | [(i, _)] => do
    let validFrom ← storeTime driver record.validFrom
    let validUntil ← storeTime driver record.validUntil
    pure (false, relations.modify i fun rel => { rel with
      confidence := record.confidence
      source := record.source
      metadata := record.metadata
      validFrom
      validUntil })
  | _ => .error .multipleResults

/-- The edges that `traverse_entity_graph` follows at a time. -/
def relationInForce (now : Time) (rel : EntityRelation) : Bool :=
  !(rel.validFrom.any fun t => now < t) && !(rel.validUntil.any fun t => t < now)

end Minsight

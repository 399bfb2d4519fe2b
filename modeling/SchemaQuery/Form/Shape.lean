import SchemaQuery.Form.Record
import SchemaQuery.Relationship
import SchemaQuery.Shape.Traits
import SchemaQuery.Shape.Type

namespace SchemaQuery

namespace ShapeId

def toNode (id : ShapeId) : Node :=
  .text id.text

def ofNode? : Node → Option ShapeId
  | .text s => (parse s).toOption
  | _ => none

end ShapeId

namespace ShapeType

def toNode (type : ShapeType) : Node :=
  .text type.name

def ofNode? (n : Node) : Option ShapeType :=
  n.choice?.bind ofName?

end ShapeType

namespace RelationshipType

/-- The name of a relationship in nodes: its label in capitals at the start of each word. -/
def title : RelationshipType → String
  | member => "Member"
  | memberTarget => "MemberTarget"
  | identifier => "Identifier"
  | property => "Property"
  | resource => "Resource"
  | operation => "Operation"
  | collectionOperation => "CollectionOperation"
  | create => "Create"
  | put => "Put"
  | read => "Read"
  | update => "Update"
  | delete => "Delete"
  | list => "List"
  | input => "Input"
  | output => "Output"
  | error => "Error"
  | mixin => "Mixin"
  | trait => "Trait"

def ofTitle? (s : String) : Option RelationshipType :=
  all.find? fun type => type.title = s

def toNode (type : RelationshipType) : Node :=
  .text type.title

def ofNode? (n : Node) : Option RelationshipType :=
  n.choice?.bind ofTitle?

end RelationshipType

namespace Relationship

def toNode (r : Relationship) : Node :=
  .object [("kind", r.type.toNode), ("neighbor", r.neighbor.toNode), ("source", r.source.toNode)]

def ofNode? (n : Node) : Option Relationship := do
  let fields ← n.record? ["source", "kind", "neighbor"]
  let source ← Field.required fields "source" ShapeId.ofNode?
  let type ← Field.required fields "kind" RelationshipType.ofNode?
  let neighbor ← Field.required fields "neighbor" ShapeId.ofNode?
  return { source, type, neighbor }

end Relationship

namespace Trait

def toNode (t : Trait) : Node :=
  .object [("id", t.id.toNode), ("value", t.value)]

def ofNode? (n : Node) : Option Trait := do
  let fields ← n.record? ["id", "value"]
  let id ← Field.required fields "id" ShapeId.ofNode?
  let value ← Field.required fields "value" some
  return { id, value }

end Trait

namespace Traits

def toNode (traits : Traits) : Node :=
  .object [("traits", .object (traits.byId.entries.map fun (id, t) => (id.text, t.toNode)))]

/-- Each field is kept under the id that it is named for, whatever the id of its trait. -/
def ofNode? (n : Node) : Option Traits := do
  let fields ← n.record? ["traits"]
  let entries ← Field.required fields "traits" fun
    | .object fields => fields.mapM fun (name, value) => do
      return (← (ShapeId.parse name).toOption, ← Trait.ofNode? value)
    | _ => none
  return ⟨.ofList entries⟩

end Traits

end SchemaQuery

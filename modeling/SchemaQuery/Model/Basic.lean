import SchemaQuery.Model.Error
import SchemaQuery.Model.Index

namespace SchemaQuery

/-- Shapes by id, members among them, with their indexes. -/
structure Model where
  shapes : Sorted Shape.id
  index : Index
deriving Inhabited

namespace Model

def find? (m : Model) (id : ShapeId) : Option Shape :=
  m.shapes.find? id

def contains (m : Model) (id : ShapeId) : Bool :=
  m.shapes.contains id

def ids (m : Model) : List ShapeId :=
  m.shapes.keys

def size (m : Model) : Nat :=
  m.shapes.size

def isEmpty (m : Model) : Bool :=
  m.shapes.isEmpty

/-- The shapes with the given ids, as far as they are in the model. -/
def shapesAt (m : Model) (ids : List ShapeId) : List Shape :=
  ids.filterMap m.find?

def shapesOfType (m : Model) (type : ShapeType) : List Shape :=
  m.shapesAt (m.index.shapesOfType type)

def shapesWithTrait (m : Model) (trait : ShapeId) : List Shape :=
  m.shapesAt (m.index.shapesWithTrait trait)

def traitsOf? (m : Model) (id : ShapeId) : Option Traits :=
  (m.find? id).map Shape.traits

def neighbors (m : Model) (id : ShapeId) : List Relationship :=
  m.index.outgoing.get id

def reverseNeighbors (m : Model) (id : ShapeId) : List Relationship :=
  m.index.incoming.get id

def addShape (shapes : Sorted Shape.id) (shape : Shape) : Except ModelError (Sorted Shape.id) :=
  if shapes.contains shape.id then
    .error (.duplicateShape shape.id)
  else
    .ok (shapes.insert shape)

def addMembers (shape : ShapeId) (shapes : Sorted Shape.id) :
    List Member → Except ModelError (Sorted Shape.id)
  | [] => .ok shapes
  | m :: rest =>
    if m.container ≠ shape ∨ m.id.container ≠ shape then
      .error (.foreignMember m.id shape)
    else
      match addShape shapes m.toShape with
      | .error e => .error e
      | .ok shapes => addMembers shape shapes rest

def addAll (shapes : Sorted Shape.id) : List Shape → Except ModelError (Sorted Shape.id)
  | [] => .ok shapes
  | shape :: rest =>
    match addMembers shape.id shapes shape.members with
    | .error e => .error e
    | .ok shapes =>
      match addShape shapes shape with
      | .error e => .error e
      | .ok shapes => addAll shapes rest

/-- The model of some shapes, in which their members are shapes as well. -/
def ofShapes (shapes : List Shape) : Except ModelError Model :=
  (addAll ∅ shapes).map fun shapes => ⟨shapes, .ofShapes shapes⟩

end Model

end SchemaQuery

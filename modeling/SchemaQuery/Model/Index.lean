import SchemaQuery.Model.Grouping
import SchemaQuery.Shape.Basic

namespace SchemaQuery

structure Index where
  byType : Grouping ShapeType ShapeId
  byTrait : Grouping ShapeId ShapeId
  outgoing : Grouping ShapeId Relationship
  incoming : Grouping ShapeId Relationship
deriving Inhabited

namespace Index

/-- The edges between the given shapes, by source and in the order of its references. -/
def edges (shapes : Sorted Shape.id) : List Relationship :=
  shapes.entries.flatMap fun shape =>
    shape.relationships.filter fun r => shapes.contains r.neighbor

def ofShapes (shapes : Sorted Shape.id) : Index where
  byType := .ofPairs (shapes.entries.map fun shape => (shape.type, shape.id))
  byTrait := .ofPairs
    (shapes.entries.flatMap fun shape => shape.traits.ids.map fun trait => (trait, shape.id))
  outgoing := .ofPairs ((edges shapes).map fun r => (r.source, r))
  incoming := .ofPairs ((edges shapes).map fun r => (r.neighbor, r))

def shapesOfType (index : Index) (type : ShapeType) : List ShapeId :=
  index.byType.get type

def shapesWithTrait (index : Index) (trait : ShapeId) : List ShapeId :=
  index.byTrait.get trait

def relationshipCount (index : Index) : Nat :=
  index.outgoing.groups.foldl (fun count (_, relationships) => count + relationships.length) 0

end Index

end SchemaQuery

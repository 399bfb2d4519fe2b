import SchemaQuery.Shape.Id

namespace SchemaQuery

inductive RelationshipType where
  | member
  | memberTarget
  | identifier
  | property
  | resource
  | operation
  | collectionOperation
  | create
  | put
  | read
  | update
  | delete
  | list
  | input
  | output
  | error
  | mixin
  | trait
deriving DecidableEq, Inhabited, Repr

namespace RelationshipType

def all : List RelationshipType :=
  [member, memberTarget, identifier, property, resource, operation, collectionOperation, create,
    put, read, update, delete, list, input, output, error, mixin, trait]

/-- The label that selector texts use. The step from a member to its target has none. -/
def label? : RelationshipType → Option String
  | member => some "member"
  | memberTarget => none
  | identifier => some "identifier"
  | property => some "property"
  | resource => some "resource"
  | operation => some "operation"
  | collectionOperation => some "collectionOperation"
  | create => some "create"
  | put => some "put"
  | read => some "read"
  | update => some "update"
  | delete => some "delete"
  | list => some "list"
  | input => some "input"
  | output => some "output"
  | error => some "error"
  | mixin => some "mixin"
  | trait => some "trait"

def text (type : RelationshipType) : String :=
  type.label?.getD "member_target"

instance : ToString RelationshipType := ⟨text⟩

def ofLabel? (label : String) : Option RelationshipType :=
  all.find? fun type => type.label? = some label

/-- Steps without labels follow every relationship but the one to a trait's definition. -/
def isFollowedByDefault (type : RelationshipType) : Bool :=
  type ≠ trait

end RelationshipType

structure Relationship where
  source : ShapeId
  type : RelationshipType
  neighbor : ShapeId
deriving DecidableEq, Inhabited, Repr

end SchemaQuery

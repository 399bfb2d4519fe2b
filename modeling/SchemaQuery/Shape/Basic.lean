import SchemaQuery.Relationship
import SchemaQuery.Shape.TargetTable
import SchemaQuery.Shape.Traits
import SchemaQuery.Shape.Type

namespace SchemaQuery

/-- A member of an aggregate. `mixins` are the members that it inherits from. -/
structure Member where
  id : ShapeId
  container : ShapeId
  target : ShapeId
  traits : Traits
  mixins : List ShapeId
deriving DecidableEq, Inhabited

structure Resource where
  identifiers : TargetTable
  properties : TargetTable
  create : Option ShapeId
  put : Option ShapeId
  read : Option ShapeId
  update : Option ShapeId
  delete : Option ShapeId
  list : Option ShapeId
  operations : List ShapeId
  collectionOperations : List ShapeId
  resources : List ShapeId
deriving DecidableEq, Inhabited

structure Operation where
  input : Option ShapeId
  output : Option ShapeId
  errors : List ShapeId
deriving DecidableEq, Inhabited

/-- What a service binds. An empty version is no version. -/
structure Service where
  version : String
  operations : List ShapeId
  resources : List ShapeId
  errors : List ShapeId
deriving DecidableEq, Inhabited

namespace Resource

def blank : Resource :=
  ⟨∅, ∅, none, none, none, none, none, none, [], [], []⟩

end Resource

namespace Operation

def blank : Operation := ⟨none, none, []⟩

end Operation

namespace Service

def blank : Service := ⟨"", [], [], []⟩

end Service

inductive Content where
  | simple (type : SimpleType)
  | aggregate (type : AggregateType) (members : List Member)
  | member (container target : ShapeId)
  | service (service : Service)
  | resource (resource : Resource)
  | operation (operation : Operation)
deriving DecidableEq, Inhabited

/-- A vertex of a schema graph. Members are vertices of their own beside their container. -/
structure Shape where
  id : ShapeId
  content : Content
  traits : Traits
  mixins : List ShapeId
deriving DecidableEq, Inhabited

def Content.type : Content → ShapeType
  | simple type => .simple type
  | aggregate type _ => .aggregate type
  | member _ _ => .member
  | service _ => .service
  | resource _ => .resource
  | operation _ => .operation

def Member.toShape (m : Member) : Shape :=
  ⟨m.id, .member m.container m.target, m.traits, m.mixins⟩

namespace Shape

def type (shape : Shape) : ShapeType :=
  shape.content.type

def members (shape : Shape) : List Member :=
  match shape.content with
  | .aggregate _ members => members
  | _ => []

def member? (shape : Shape) (name : String) : Option Member :=
  shape.members.find? fun m => m.id.member = some name

def asMember? (shape : Shape) : Option (ShapeId × ShapeId) :=
  match shape.content with
  | .member container target => some (container, target)
  | _ => none

def asService? (shape : Shape) : Option Service :=
  match shape.content with
  | .service service => some service
  | _ => none

def asResource? (shape : Shape) : Option Resource :=
  match shape.content with
  | .resource resource => some resource
  | _ => none

def asOperation? (shape : Shape) : Option Operation :=
  match shape.content with
  | .operation operation => some operation
  | _ => none

def target? (shape : Shape) : Option ShapeId :=
  shape.asMember?.map Prod.snd

def trait? (shape : Shape) (id : ShapeId) : Option Trait :=
  shape.traits.find? id

def hasTrait (shape : Shape) (id : ShapeId) : Bool :=
  shape.traits.contains id

def resourceReferences (r : Resource) : List (RelationshipType × ShapeId) :=
  r.identifiers.targets.map (.identifier, ·) ++
  r.properties.targets.map (.property, ·) ++
  r.create.toList.map (.create, ·) ++
  r.put.toList.map (.put, ·) ++
  r.read.toList.map (.read, ·) ++
  r.update.toList.map (.update, ·) ++
  r.delete.toList.map (.delete, ·) ++
  r.list.toList.map (.list, ·) ++
  r.operations.map (.operation, ·) ++
  r.collectionOperations.map (.collectionOperation, ·) ++
  r.resources.map (.resource, ·)

def contentReferences : Content → List (RelationshipType × ShapeId)
  | .simple _ => []
  | .aggregate _ members => members.map fun m => (.member, m.id)
  | .member _ target => [(.memberTarget, target)]
  | .resource r => resourceReferences r
  | .operation o =>
    o.input.toList.map (.input, ·) ++ o.output.toList.map (.output, ·) ++ o.errors.map (.error, ·)
  | .service s =>
    s.operations.map (.operation, ·) ++ s.resources.map (.resource, ·) ++ s.errors.map (.error, ·)

/-- All references of a shape: those of its content, then its mixins, then its traits. -/
def references (shape : Shape) : List (RelationshipType × ShapeId) :=
  contentReferences shape.content ++ shape.mixins.map (.mixin, ·) ++
    shape.traits.ids.map (.trait, ·)

def relationships (shape : Shape) : List Relationship :=
  shape.references.map fun (type, neighbor) => ⟨shape.id, type, neighbor⟩

end Shape

end SchemaQuery

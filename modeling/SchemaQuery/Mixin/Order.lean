import SchemaQuery.Graph.DepthFirst
import SchemaQuery.Model.Error

namespace SchemaQuery.Declarations

def checkMixin (declared : Declarations) (d : Declaration) (mixin : ShapeId) :
    Except ModelError Unit :=
  if mixin = d.id then
    .error (.cycle d.id)
  else
    match declared.find? mixin with
    | none => .error (.unknownMixin d.id mixin)
    | some m =>
      if !m.traits.contains .mixinMarker then
        .error (.invalidMixin d.id mixin .unmarked)
      else if m.type ≠ d.type then
        .error (.invalidMixin d.id mixin (.otherType d.type m.type))
      else
        .ok ()

def checkMixins (declared : Declarations) (d : Declaration) : Except ModelError Unit :=
  d.mixins.forM (checkMixin declared d)

def mixinsOf (declared : Declarations) (id : ShapeId) : List ShapeId :=
  match declared.find? id with
  | none => []
  | some d => d.mixins.eraseDups

def dependents (declared : Declarations) (id : ShapeId) : List ShapeId :=
  (declared.entries.filter fun d => id ∈ d.mixins).map Declaration.id

/-- The last mixin of the first shape that does not have all its mixins before it. -/
def misplaced? (declared : Declarations) (before : List ShapeId) : List ShapeId → Option ShapeId
  | [] => none
  | id :: rest =>
    match ((declared.mixinsOf id).filter fun m => m ∉ id :: before).getLast? with
    | some mixin => some mixin
    | none => misplaced? declared (id :: before) rest

def resolutionOrder (declared : Declarations) : Except ModelError (List ShapeId) :=
  match declared.entries.forM (checkMixins declared) with
  | .error e => .error e
  | .ok () =>
    let order := DepthFirst.order declared.keys declared.dependents
    match declared.misplaced? [] order with
    | some shape => .error (.cycle shape)
    | none => .ok order

end SchemaQuery.Declarations

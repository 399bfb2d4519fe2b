import SchemaQuery.Mixin.Bindings
import SchemaQuery.Mixin.Members
import SchemaQuery.Mixin.Order
import SchemaQuery.Mixin.Traits

namespace SchemaQuery

namespace Declaration

def resolveContent (d : Declaration) (mixins : List Shape) (members : List EffectiveMember) :
    Except ModelError Content :=
  match d.content with
  | .simple type => .ok (.simple type)
  | .aggregate type _ => (EffectiveMember.freeze d.id members).map (.aggregate type)
  | .member => .error (.invalidDefinition d.id .loneMember)
  | .resource r => .ok (.resource (.mergeAll (mixins.filterMap Shape.asResource? ++ [r])))
  | .operation o => .ok (.operation (.mergeAll (mixins.filterMap Shape.asOperation? ++ [o])))
  | .service s => .ok (.service (.mergeAll (mixins.filterMap Shape.asService? ++ [s])))

def resolve (policy : ConflictPolicy) (d : Declaration) (mixins : List Shape) :
    Except ModelError Shape :=
  match EffectiveTraits.of d mixins with
  | .error e => .error e
  | .ok traits =>
    match EffectiveMember.all policy d mixins with
    | .error e => .error e
    | .ok members =>
      match EffectiveMember.checkNames d members with
      | .error e => .error e
      | .ok () =>
        (d.resolveContent mixins members).map fun content => ⟨d.id, content, traits, d.mixins⟩

end Declaration

namespace Declarations

def resolveInOrder (policy : ConflictPolicy) (declared : Declarations) (resolved : List Shape) :
    List ShapeId → Except ModelError (List Shape)
  | [] => .ok resolved
  | id :: rest =>
    match declared.find? id with
    | none => resolveInOrder policy declared resolved rest
    | some d =>
      let mixins := d.mixins.filterMap fun mixin => resolved.find? fun shape => shape.id = mixin
      match d.resolve policy mixins with
      | .error e => .error e
      | .ok shape => resolveInOrder policy declared (resolved ++ [shape]) rest

/-- The shapes of all declarations, every mixin before the shapes that mix it in. -/
def resolveAll (policy : ConflictPolicy) (declared : Declarations) :
    Except ModelError (List Shape) :=
  match declared.resolutionOrder with
  | .error e => .error e
  | .ok order => declared.resolveInOrder policy [] order

end Declarations

end SchemaQuery

import SchemaQuery.Text.Quoted
import SchemaQuery.Declaration

namespace SchemaQuery

inductive MemberConflict where
  | betweenMixins (mixin target earlier : ShapeId)
  | withLocal (target inherited : ShapeId)
deriving DecidableEq

inductive MixinFlaw where
  | unmarked
  | otherType (type mixinType : ShapeType)
  | badLocalTrait (entry : Node)
deriving DecidableEq

inductive DefinitionFlaw where
  | misuse (misuse : Misuse)
  | memberId
  | memberNames (type : AggregateType) (expected found : List String)
  | loneMember
deriving DecidableEq

inductive ModelError where
  | conflict (shape : ShapeId) (member : String) (conflict : MemberConflict)
  | cycle (shape : ShapeId)
  | duplicateShape (shape : ShapeId)
  | duplicateMember (shape : ShapeId) (member : String)
  | unknownMixin (shape mixin : ShapeId)
  | invalidMixin (shape mixin : ShapeId) (flaw : MixinFlaw)
  | unknownTrait (shape trait : ShapeId)
  | notATraitDefinition (shape trait : ShapeId)
  | foreignMember (member container : ShapeId)
  | invalidDefinition (shape : ShapeId) (flaw : DefinitionFlaw)
  | malformedId (e : ShapeId.Malformed)
deriving DecidableEq

def MemberConflict.message : MemberConflict → String
  | betweenMixins mixin target earlier =>
    "mixin `" ++ mixin.text ++ "` targets `" ++ target.text ++
      "`, an earlier mixin targets `" ++ earlier.text ++ "`"
  | withLocal target inherited =>
    "local target `" ++ target.text ++ "` differs from inherited target `" ++ inherited.text ++
      "`"

def MixinFlaw.message : MixinFlaw → String
  | unmarked => "target is not marked with `smithy.api#mixin`"
  | otherType type mixinType =>
    "a `" ++ type.name ++ "` cannot mix in a `" ++ mixinType.name ++ "`"
  | badLocalTrait entry =>
    "`localTraits` entries must be shape ids, found " ++ entry.render

def DefinitionFlaw.message : DefinitionFlaw → String
  | misuse m => m.message
  | memberId => "top-level shape ids cannot carry a member name"
  | memberNames type expected found =>
    "a `" ++ type.name ++ "` must declare exactly the members " ++ Quoted.list expected ++
      ", found " ++ Quoted.list found
  | loneMember => "member shapes cannot be declared at the top level"

def ModelError.message : ModelError → String
  | conflict shape member c =>
    "Conflicting definitions of member `" ++ member ++ "` on `" ++ shape.text ++ "`: " ++
      c.message
  | cycle shape => "Mixin cycle detected involving `" ++ shape.text ++ "`"
  | duplicateShape shape => "Duplicate shape definition: `" ++ shape.text ++ "`"
  | duplicateMember shape member =>
    "Duplicate member `" ++ member ++ "` declared on `" ++ shape.text ++ "`"
  | unknownMixin shape mixin =>
    "Shape `" ++ shape.text ++ "` mixes in unknown shape `" ++ mixin.text ++ "`"
  | invalidMixin shape mixin flaw =>
    "Shape `" ++ shape.text ++ "` cannot use `" ++ mixin.text ++ "` as a mixin: " ++ flaw.message
  | unknownTrait shape trait =>
    "Shape `" ++ shape.text ++ "` applies unknown trait `" ++ trait.text ++ "`"
  | notATraitDefinition shape trait =>
    "Shape `" ++ shape.text ++ "` applies `" ++ trait.text ++
      "`, which is not a trait definition"
  | foreignMember member container =>
    "Member `" ++ member.text ++ "` does not belong to container `" ++ container.text ++ "`"
  | invalidDefinition shape flaw =>
    "Invalid definition of `" ++ shape.text ++ "`: " ++ flaw.message
  | malformedId e => e.message

end SchemaQuery

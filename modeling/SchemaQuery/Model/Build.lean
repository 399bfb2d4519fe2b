import SchemaQuery.Mixin.Resolve
import SchemaQuery.Model.Basic
import SchemaQuery.Prelude

namespace SchemaQuery.Model

/-- Adds declarations one after the other. Each must be free of misuse and have an id of its own
that names no member. -/
def collect (declared : Declarations) : List Declaration → Except ModelError Declarations
  | [] => .ok declared
  | d :: rest =>
    match d.misuse with
    | misuse :: _ => .error (.invalidDefinition d.id (.misuse misuse))
    | [] =>
      if d.id.hasMember then
        .error (.invalidDefinition d.id .memberId)
      else if declared.contains d.id then
        .error (.duplicateShape d.id)
      else
        collect (declared.insert d) rest

def checkTrait (m : Model) (shape trait : ShapeId) : Except ModelError Unit :=
  match m.find? trait with
  | none => .error (.unknownTrait shape trait)
  | some definition =>
    if definition.hasTrait .traitMarker then
      .ok ()
    else
      .error (.notATraitDefinition shape trait)

def checkTraits (m : Model) : Except ModelError Unit :=
  m.shapes.entries.forM fun shape => shape.traits.ids.forM (m.checkTrait shape.id)

def withPrelude (config : ModelConfig) (declarations : List Declaration) : List Declaration :=
  if config.includePrelude then declarations ++ Prelude.declarations else declarations

def build (config : ModelConfig) (declarations : List Declaration) : Except ModelError Model :=
  match collect ∅ (withPrelude config declarations) with
  | .error e => .error e
  | .ok declared =>
    match declared.resolveAll config.conflicts with
    | .error e => .error e
    | .ok shapes =>
      match ofShapes shapes with
      | .error e => .error e
      | .ok m =>
        if config.requireTraitDefinitions then
          (m.checkTraits).map fun () => m
        else
          .ok m

end SchemaQuery.Model

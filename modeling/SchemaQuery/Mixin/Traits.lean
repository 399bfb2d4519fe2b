import SchemaQuery.Model.Error

namespace SchemaQuery.EffectiveTraits

def localIds (shape mixin : ShapeId) : List Node → Except ModelError (List ShapeId)
  | [] => .ok []
  | .text entry :: rest =>
    match ShapeId.parseRelative entry ShapeId.preludeNamespace with
    | .error e => .error (.malformedId e)
    | .ok id => (localIds shape mixin rest).map (id :: ·)
  | entry :: _ => .error (.invalidMixin shape mixin (.badLocalTrait entry))

/-- The traits that a mixin keeps to itself: the mark of a mixin, and what its value lists as
`localTraits`. -/
def keptBack (shape : ShapeId) (mixin : Shape) : Except ModelError (List ShapeId) :=
  match (mixin.trait? .mixinMarker).bind fun t => t.value.field? "localTraits" with
  | some (.array entries) =>
    (localIds shape mixin.id entries).map (.mixinMarker :: ·)
  | _ => .ok [.mixinMarker]

def handedOn (shape : ShapeId) (mixin : Shape) : Except ModelError (List Trait) :=
  (keptBack shape mixin).map fun kept => mixin.traits.toList.filter fun t => t.id ∉ kept

/-- The traits of mixins, in which a later one replaces an earlier one. -/
def inherited (shape : ShapeId) (traits : Traits) : List Shape → Except ModelError Traits
  | [] => .ok traits
  | mixin :: rest =>
    match handedOn shape mixin with
    | .error e => .error e
    | .ok new => inherited shape (traits.insertAll new) rest

/-- The traits of mixins, and over them those of the declaration itself. -/
def of (d : Declaration) (mixins : List Shape) : Except ModelError Traits :=
  (inherited d.id ∅ mixins).map fun traits => traits.insertAll d.traits.toList

end SchemaQuery.EffectiveTraits

import SchemaQuery.Selector.Push

namespace SchemaQuery

namespace TypeFilter

/-- The shapes of the accepted types, from the index of types. Nothing is better than trying every
shape where every shape is accepted. -/
def fastPath? (filter : TypeFilter) (m : Model) : Option (List ShapeId) :=
  match filter with
  | .any => none
  | filter =>
    some (((ShapeType.all.filter filter.accepts).flatMap m.index.shapesOfType).mergeSort
      fun a b => (compare a b).isLE)

end TypeFilter

namespace AttributeFilter

def idsIn (m : Model) (texts : List String) : IdSet :=
  .ofList ((texts.filterMap fun text => (ShapeId.parse text).toOption).filter m.contains)

/-- A trait is looked up in the index of traits, and ids among the shapes. -/
def fastPath? (filter : AttributeFilter) (m : Model) : Option (List ShapeId) :=
  match filter with
  | ⟨.trait definition [], none⟩ => some (m.index.shapesWithTrait definition)
  | ⟨.id, some ⟨.equal, texts, false⟩⟩ => some (idsIn m texts).entries
  | _ => none

end AttributeFilter

namespace Stage

def fastPath? (stage : Stage) (m : Model) : Option (List ShapeId) :=
  match stage with
  | .type filter => filter.fastPath? m
  | .attribute filter => filter.fastPath? m
  | _ => none

end Stage

def Pipeline.fastPath? (pipeline : Pipeline) (m : Model) : Option (List ShapeId) :=
  pipeline.head?.bind fun stage => stage.fastPath? m

end SchemaQuery

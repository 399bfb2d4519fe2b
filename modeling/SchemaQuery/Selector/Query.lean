import SchemaQuery.Selector.Parse
import SchemaQuery.Selector.Search

namespace SchemaQuery

structure Query where
  text : String
  selector : Selector
deriving Inhabited

namespace Query

def parse (text : String) : Except SelectorError Query :=
  (Selector.parse text).map fun selector => ⟨text, selector⟩

def definesTrait (m : Model) (trait : ShapeId) : Bool :=
  match m.find? trait with
  | none => false
  | some definition => definition.hasTrait .traitMarker

/-- Reads a query that may mention only traits which a model defines. -/
def compileFor (text : String) (m : Model) : Except SelectorError Query :=
  match parse text with
  | .error e => .error e
  | .ok query =>
    match query.selector.traitReferences.entries.find? fun trait => !definesTrait m trait with
    | some trait => .error (.reference (.unknownTrait trait))
    | none => .ok query

def matchesWith (query : Query) (m : Model) (config : SelectorConfig) : List Match :=
  query.selector.matchesWith m config

def selectWith (query : Query) (m : Model) (config : SelectorConfig) : List Shape :=
  query.selector.selectWith m config

def select (query : Query) (m : Model) : List Shape :=
  query.selectWith m default

def selectFrom (query : Query) (m : Model) (ids : List ShapeId) : List Shape :=
  query.selector.selectFrom m ids

def accepts (query : Query) (m : Model) (shape : Shape) : Bool :=
  (query.selectFrom m [shape.id]).any fun found => found.id = shape.id

end Query

abbrev Batch := List Query

namespace Batch

def parseAll (texts : List String) : Except SelectorError Batch :=
  texts.mapM Query.parse

def selectAllWith (batch : Batch) (m : Model) (config : SelectorConfig) : List (List Shape) :=
  batch.map fun query => query.selectWith m config

end Batch

end SchemaQuery

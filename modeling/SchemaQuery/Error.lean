import SchemaQuery.Config.Basic
import SchemaQuery.Model.Error
import SchemaQuery.Selector.Error
import SchemaQuery.Shape.Id

namespace SchemaQuery

inductive Error where
  | model (e : ModelError)
  | selector (e : SelectorError)
  | config (e : ConfigError)
  | shapeId (e : ShapeId.Malformed)
deriving DecidableEq

namespace Error

def message? : Error → Option String
  | model e => some ("Model error: " ++ e.message)
  | selector e => some ("Selector error: " ++ e.message)
  | config e => e.message?.map ("Configuration error: " ++ ·)
  | shapeId e => some e.message

end Error

end SchemaQuery

import SchemaQuery.Config.Basic
import SchemaQuery.Form.Record

namespace SchemaQuery

namespace ConflictPolicy

def toNode (policy : ConflictPolicy) : Node :=
  .text policy.name

def ofNode? (n : Node) : Option ConflictPolicy :=
  n.choice?.bind ofName?

end ConflictPolicy

namespace ModelConfig

def toNode (config : ModelConfig) : Node :=
  .object [("include_prelude", .bool config.includePrelude),
    ("mixin_member_conflicts", config.conflicts.toNode),
    ("require_trait_definitions", .bool config.requireTraitDefinitions)]

def ofNode? (n : Node) : Option ModelConfig := do
  let fields ← n.record?
    ["mixin_member_conflicts", "require_trait_definitions", "include_prelude"]
  let default : ModelConfig := default
  let conflicts ←
    Field.orDefault fields "mixin_member_conflicts" default.conflicts ConflictPolicy.ofNode?
  let requireTraitDefinitions ←
    Field.orDefault fields "require_trait_definitions" default.requireTraitDefinitions Node.bool?
  let includePrelude ←
    Field.orDefault fields "include_prelude" default.includePrelude Node.bool?
  return { conflicts, requireTraitDefinitions, includePrelude }

end ModelConfig

namespace SelectorConfig

def toNode (config : SelectorConfig) : Node :=
  .object [("optimize", .bool config.optimize),
    ("result_limit", match config.resultLimit with
      | none => .null
      | some n => .int n)]

def ofNode? (n : Node) : Option SelectorConfig := do
  let fields ← n.record? ["optimize", "result_limit"]
  let default : SelectorConfig := default
  let optimize ← Field.orDefault fields "optimize" default.optimize Node.bool?
  let resultLimit ←
    Field.orDefault fields "result_limit" default.resultLimit (Node.optionalNumber? limitBound)
  return { optimize, resultLimit }

end SelectorConfig

namespace EngineConfig

def toNode (config : EngineConfig) : Node :=
  .object [("model", config.model.toNode), ("selector", config.selector.toNode)]

def ofNode? (n : Node) : Option EngineConfig := do
  let fields ← n.record? ["model", "selector"]
  let model ← Field.orDefault fields "model" default ModelConfig.ofNode?
  let selector ← Field.orDefault fields "selector" default SelectorConfig.ofNode?
  return { model, selector }

end EngineConfig

end SchemaQuery

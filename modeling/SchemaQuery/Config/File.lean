import SchemaQuery.Config.Basic
import SchemaQuery.Config.Value
import SchemaQuery.Form.Record

namespace SchemaQuery

open Yaml (Document Tree)

namespace ModelConfig

def ofTree? (d : Document) (t : Tree) : Option ModelConfig := do
  let fields ← d.fields?
    ["mixin_member_conflicts", "require_trait_definitions", "include_prelude"] t
  let default : ModelConfig := default
  let conflicts ← Field.orDefault fields "mixin_member_conflicts" default.conflicts fun t =>
    t.choice?.bind ConflictPolicy.ofName?
  let requireTraitDefinitions ←
    Field.orDefault fields "require_trait_definitions" default.requireTraitDefinitions Tree.bool?
  let includePrelude ← Field.orDefault fields "include_prelude" default.includePrelude Tree.bool?
  return { conflicts, requireTraitDefinitions, includePrelude }

end ModelConfig

namespace SelectorConfig

def ofTree? (d : Document) (t : Tree) : Option SelectorConfig := do
  let fields ← d.fields? ["optimize", "result_limit"] t
  let default : SelectorConfig := default
  let optimize ← Field.orDefault fields "optimize" default.optimize Tree.bool?
  let resultLimit ←
    Field.orDefault fields "result_limit" default.resultLimit (Tree.optionalNumber? limitBound)
  return { optimize, resultLimit }

end SelectorConfig

structure SettingsFile where
  version : Option Nat
  config : EngineConfig
deriving DecidableEq, Repr

def SettingsFile.ofDocument? (d : Document) : Option SettingsFile := do
  let fields ← d.fields? ["version", "model", "selector"] d.root
  let version ← Field.orDefault fields "version" none (Tree.optionalNumber? versionBound)
  let model ← Field.orDefault fields "model" default (ModelConfig.ofTree? d)
  let selector ← Field.orDefault fields "selector" default (SelectorConfig.ofTree? d)
  return { version, config := { model, selector } }

namespace EngineConfig

/-- Reads the text of a settings file. A malformed document is refused before a wrong version, and
that before a setting that is not allowed. -/
def ofYaml (text : String) : Except ConfigError EngineConfig :=
  match (Document.parse? text).bind SettingsFile.ofDocument? with
  | none => .error .malformedYaml
  | some ⟨none, _⟩ => .error .missingVersion
  | some ⟨some n, config⟩ =>
    if n = version then
      match config.validate with
      | .error e => .error e
      | .ok () => .ok config
    else
      .error (.unsupportedVersion n)

def ofContent (content : Option ByteArray) : Except ConfigError EngineConfig :=
  match content.bind String.fromUTF8? with
  | none => .error .unreadable
  | some text => ofYaml text

def toYaml (config : EngineConfig) : String :=
  let bool (b : Bool) : String := if b then "true" else "false"
  let limit := match config.selector.resultLimit with
    | none => "null"
    | some n => toString n
  "version: " ++ toString version ++ "\n" ++
    "model:\n" ++
    "  mixin_member_conflicts: " ++ config.model.conflicts.name ++ "\n" ++
    "  require_trait_definitions: " ++ bool config.model.requireTraitDefinitions ++ "\n" ++
    "  include_prelude: " ++ bool config.model.includePrelude ++ "\n" ++
    "selector:\n" ++
    "  optimize: " ++ bool config.selector.optimize ++ "\n" ++
    "  result_limit: " ++ limit ++ "\n"

end EngineConfig

end SchemaQuery

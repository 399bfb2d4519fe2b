namespace SchemaQuery

/-- What to do when two mixins give a member of one name different targets. -/
inductive ConflictPolicy where
  | error
  | firstWins
deriving DecidableEq, Inhabited, Repr

namespace ConflictPolicy

def name : ConflictPolicy → String
  | error => "error"
  | firstWins => "first_wins"

def ofName? (s : String) : Option ConflictPolicy :=
  if s = "error" then some error else if s = "first_wins" then some firstWins else none

end ConflictPolicy

structure ModelConfig where
  conflicts : ConflictPolicy
  requireTraitDefinitions : Bool
  includePrelude : Bool
deriving DecidableEq, Repr

instance : Inhabited ModelConfig := ⟨⟨.error, true, true⟩⟩

structure SelectorConfig where
  optimize : Bool
  resultLimit : Option Nat
deriving DecidableEq, Repr

instance : Inhabited SelectorConfig := ⟨⟨true, none⟩⟩

def limitBound : Nat := Nat.pow 2 64

def versionBound : Nat := Nat.pow 2 32

structure EngineConfig where
  model : ModelConfig
  selector : SelectorConfig
deriving DecidableEq, Inhabited, Repr

inductive ConfigError where
  | unreadable
  | malformedYaml
  | missingVersion
  | unsupportedVersion (found : Nat)
  | zeroLimit
deriving DecidableEq, Repr

namespace ModelConfig

def name : String := "ModelConfig"

def validate (_ : ModelConfig) : Except ConfigError Unit :=
  .ok ()

end ModelConfig

namespace SelectorConfig

def name : String := "SelectorConfig"

def fullScan : SelectorConfig := ⟨false, none⟩

def withResultLimit (config : SelectorConfig) (limit : Nat) : SelectorConfig :=
  { config with resultLimit := some limit }

def validate (config : SelectorConfig) : Except ConfigError Unit :=
  if config.resultLimit = some 0 then .error .zeroLimit else .ok ()

end SelectorConfig

namespace EngineConfig

def name : String := "EngineConfig"

def version : Nat := 1

def validate (config : EngineConfig) : Except ConfigError Unit :=
  match config.model.validate with
  | .error e => .error e
  | .ok () => config.selector.validate

end EngineConfig

/-- The message of a refusal. Those that depend on a broken file have none. -/
def ConfigError.message? : ConfigError → Option String
  | unreadable => none
  | malformedYaml => none
  | missingVersion => some "Engine configuration has no `version` (expected `version: 1`)"
  | unsupportedVersion found =>
    some ("Engine configuration version " ++ toString found ++
      " is not supported (supported: [1])")
  | zeroLimit =>
    some (SelectorConfig.name ++
      ".result_limit = 0 is not allowed: omit it or set it to null for unlimited results")

end SchemaQuery

import SchemaQuery.Selector.Lexemes

/-!
Parsing: from the lexemes of a text to a selector.

Parentheses open selectors inside of selectors. A variable may be used only where it is bound on
every way through the text to that place: the alternatives of a list all start with the variables
bound before the list, and after it those are bound that every alternative has bound. Only `:is`
hands the variables of its arguments on, and the argument of `:root` starts without any.
-/
namespace SchemaQuery

abbrev Scope := List String

inductive Opener where
  | function (kind : FunctionKind) (name : String)
  | capture (name : String)
deriving DecidableEq, Repr

structure Level where
  entry : Scope
  /-- What every finished alternative has bound, if there is one. -/
  common : Option Scope
  finished : Selector
  stages : Pipeline
  scope : Scope
deriving Inhabited

namespace Level

def start (entry : Scope) : Level :=
  ⟨entry, none, [], [], entry⟩

def add (level : Level) (stage : Stage) : Level :=
  { level with stages := level.stages ++ [stage] }

def addBinding (level : Level) (stage : Stage) (name : String) : Level :=
  { level with stages := level.stages ++ [stage], scope := level.scope.insert name }

def boundByAll (level : Level) : Scope :=
  match level.common with
  | none => level.scope
  | some common => common.filter fun name => name ∈ level.scope

def alternatives (level : Level) : Selector :=
  level.finished ++ [level.stages]

def nextAlternative (level : Level) : Level where
  entry := level.entry
  common := some level.boundByAll
  finished := level.alternatives
  stages := []
  scope := level.entry

def inside (level : Level) : Opener → Level
  | .function .root _ => start []
  | .function _ _ => start level.scope
  | .capture _ => start level.scope

def complete (outer : Level) (opener : Opener) (inner : Level) : Except ReferenceError Level :=
  match opener with
  | .capture name => .ok (outer.addBinding (.capture name inner.alternatives) name)
  | .function kind name =>
    let args := inner.alternatives.map fun pipeline => [pipeline]
    match kind.arity? with
    | some expected =>
      if args.length = expected then
        .ok (outer.add (.function kind args))
      else
        .error (.arity name expected args.length)
    | none =>
      let outer := outer.add (.function kind args)
      .ok (if kind = .is then { outer with scope := inner.boundByAll } else outer)

end Level

/-- Reads a selector. `outer` holds the selectors around it, the nearest first, with what opened
the one inside of each. -/
def assemble (level : Level) (outer : List (Level × Opener)) : Lexemes → Except Fault Selector
  | .fault f => .error f
  | .finish =>
    if level.stages.isEmpty then
      .error (.flaw .selectorExpected [])
    else
      match outer with
      | [] => .ok level.alternatives
      | _ :: _ => .error (.flaw (.expected ")") [])
  | .next lexeme place rest =>
    match lexeme with
    | .stage stage => assemble (level.add stage) outer rest
    | .bind name => assemble (level.addBinding (.bind name) name) outer rest
    | .get name =>
      if name ∈ level.scope then
        assemble (level.add (.get name)) outer rest
      else
        .error (.reference (.unboundVariable name))
    | .openFunction kind name =>
      assemble (level.inside (.function kind name)) ((level, .function kind name) :: outer) rest
    | .openCapture name =>
      assemble (level.inside (.capture name)) ((level, .capture name) :: outer) rest
    | .comma =>
      if level.stages.isEmpty then
        .error (.flaw .selectorExpected place)
      else
        assemble level.nextAlternative outer rest
    | .close =>
      if level.stages.isEmpty then
        .error (.flaw .selectorExpected place)
      else
        match outer with
        | [] => .error (.flaw (.unexpected ')') place)
        | (parent, opener) :: outer =>
          match parent.complete opener level with
          | .error e => .error (.reference e)
          | .ok level => assemble level outer rest

def byteLength (cs : List Char) : Nat :=
  cs.foldl (fun length c => length + c.utf8Size) 0

def Fault.toError (input : String) : Fault → SelectorError
  | .flaw what place => .malformed (byteLength input.toList - byteLength place) what input
  | .reference e => .reference e

def Selector.parse (input : String) : Except SelectorError Selector :=
  match assemble (.start []) [] (.of input.toList) with
  | .error fault => .error (fault.toError input)
  | .ok selector => .ok selector

end SchemaQuery

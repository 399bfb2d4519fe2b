import SchemaQuery.Shape.Basic

/-!
Selectors: queries on the shapes of a model.

A selector is a list of alternatives, each a pipeline of stages. A stage takes a shape and yields
any number of shapes to the stages after it.
-/
namespace SchemaQuery

inductive TypeFilter where
  | any
  | exact (type : ShapeType)
  | number
  | simpleType
  | collection
deriving DecidableEq, Inhabited, Repr

inductive Direction where
  | forward
  | reverse
  | recursive
deriving DecidableEq, Inhabited, Repr

/-- A step along relationships: those with certain labels, or all that are followed by default. -/
structure NeighborStep where
  direction : Direction
  labels : Option (List RelationshipType)
deriving DecidableEq, Inhabited, Repr

inductive PathSegment where
  | key (text : String)
  | keys
  | values
  /-- The number of fields, elements or characters. -/
  | length
deriving DecidableEq, Inhabited, Repr

inductive AttributeKey where
  | id
  | idNamespace
  | idName
  | idMember
  | service
  | serviceVersion
  | trait (id : ShapeId) (path : List PathSegment)
deriving DecidableEq, Inhabited, Repr

inductive Comparator where
  | equal
  | notEqual
  | startsWith
  | endsWith
  | contains
  | exists
  | greater
  | greaterEqual
  | less
  | lessEqual
deriving DecidableEq, Inhabited, Repr

structure Comparison where
  comparator : Comparator
  values : List String
  ignoreCase : Bool
deriving DecidableEq, Inhabited, Repr

structure AttributeFilter where
  key : AttributeKey
  comparison : Option Comparison
deriving DecidableEq, Inhabited, Repr

inductive FunctionKind where
  | not
  | is
  | test
  /-- Passes a shape that some argument yields from it. -/
  | in
  /-- Yields what the arguments yield from the shapes of the whole model. -/
  | root
deriving DecidableEq, Inhabited, Repr

/-- One stage. Function arguments and captures hold selectors of their own. -/
inductive Stage where
  | type (filter : TypeFilter)
  | attribute (filter : AttributeFilter)
  | neighbor (step : NeighborStep)
  | function (kind : FunctionKind) (args : List (List (List Stage)))
  /-- Binds a name to what the selector yields, and passes the shape. -/
  | capture (name : String) (selector : List (List Stage))
  | bind (name : String)
  | get (name : String)
deriving Inhabited

/-- Induction on stages: a function or a capture may count on every stage of the selectors that it
holds. -/
@[elab_as_elim]
theorem Stage.inductionOn {P : Stage → Prop} (stage : Stage)
    (type : ∀ filter, P (.type filter)) («attribute» : ∀ filter, P (.attribute filter))
    (neighbor : ∀ step, P (.neighbor step))
    (function : ∀ kind args,
      (∀ selector ∈ args, ∀ pipeline ∈ selector, ∀ stage ∈ pipeline, P stage) →
        P (.function kind args))
    (capture : ∀ name selector, (∀ pipeline ∈ selector, ∀ stage ∈ pipeline, P stage) →
      P (.capture name selector))
    (bind : ∀ name, P (.bind name)) (get : ∀ name, P (.get name)) : P stage :=
  @Stage.rec P
    (fun args => ∀ selector ∈ args, ∀ pipeline ∈ selector, ∀ stage ∈ pipeline, P stage)
    (fun selector => ∀ pipeline ∈ selector, ∀ stage ∈ pipeline, P stage)
    (fun pipeline => ∀ stage ∈ pipeline, P stage)
    type «attribute» neighbor function capture bind get
    (List.forall_mem_nil _) (fun _ _ hselector hargs => List.forall_mem_cons.mpr ⟨hselector, hargs⟩)
    (List.forall_mem_nil _) (fun _ _ hpipeline hrest => List.forall_mem_cons.mpr ⟨hpipeline, hrest⟩)
    (List.forall_mem_nil _) (fun _ _ hstage hrest => List.forall_mem_cons.mpr ⟨hstage, hrest⟩)
    stage

abbrev Pipeline := List Stage

/-- Alternatives, tried one after the other. -/
abbrev Selector := List Pipeline

namespace TypeFilter

def name : TypeFilter → String
  | any => "*"
  | exact type => type.name
  | number => "number"
  | simpleType => "simpleType"
  | collection => "collection"

def ofName? (text : String) : Option TypeFilter :=
  if text = "*" then some any
  else if text = "number" then some number
  else if text = "simpleType" then some simpleType
  else if text = "collection" then some collection
  else (ShapeType.ofName? text).map exact

def accepts (filter : TypeFilter) (type : ShapeType) : Bool :=
  match filter with
  | any => true
  | exact expected => expected.agrees type
  | number => type.isNumber
  | simpleType => type.isSimple
  | collection => type.isCollection

end TypeFilter

namespace Comparator

def symbol : Comparator → String
  | equal => "="
  | notEqual => "!="
  | startsWith => "^="
  | endsWith => "$="
  | contains => "*="
  | .exists => "?="
  | greater => ">"
  | greaterEqual => ">="
  | less => "<"
  | lessEqual => "<="

/-- Every comparator, those with longer symbols first. -/
def all : List Comparator :=
  [notEqual, startsWith, endsWith, contains, .exists, greaterEqual, lessEqual, equal, greater,
    less]

end Comparator

namespace FunctionKind

def ofName? (text : String) : Option FunctionKind :=
  if text = "not" then some not
  else if text = "is" ∨ text = "each" then some is
  else if text = "test" then some test
  else if text = "in" then some .in
  else if text = "root" then some root
  else none

def name : FunctionKind → String
  | not => "not"
  | is => "is"
  | test => "test"
  | .in => "in"
  | root => "root"

def arity? : FunctionKind → Option Nat
  | .in | root => some 1
  | not | is | test => none

end FunctionKind

mutual

def Stage.traits : Stage → List ShapeId
  | .attribute ⟨.trait id _, _⟩ => [id]
  | .function _ args => argumentTraits args
  | .capture _ selector => selectorTraits selector
  | _ => []

def pipelineTraits : List Stage → List ShapeId
  | [] => []
  | stage :: rest => stage.traits ++ pipelineTraits rest

def selectorTraits : List (List Stage) → List ShapeId
  | [] => []
  | pipeline :: rest => pipelineTraits pipeline ++ selectorTraits rest

def argumentTraits : List (List (List Stage)) → List ShapeId
  | [] => []
  | selector :: rest => selectorTraits selector ++ argumentTraits rest

end

def Selector.traitReferences (selector : Selector) : IdSet :=
  .ofList (selectorTraits selector)

end SchemaQuery

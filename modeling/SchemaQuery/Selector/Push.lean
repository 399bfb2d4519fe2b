import SchemaQuery.Graph.BreadthFirst
import SchemaQuery.Model.Basic
import SchemaQuery.Selector.Attribute

/-!
Evaluation of a selector from one shape.

Whatever the selector yields is handed to a sink one by one. The sink carries a state along, and may
stop the evaluation.
-/
namespace SchemaQuery

abbrev Bindings := SortedMap String IdSet

namespace Bindings

def bind (bindings : Bindings) (name : String) (shapes : IdSet) : Bindings :=
  bindings.insert (name, shapes)

def shapesOf (bindings : Bindings) (name : String) : IdSet :=
  ((bindings.find? name).map Prod.snd).getD ∅

end Bindings

/-- Takes a result and says whether to go on. -/
abbrev Sink (σ : Type) := Bindings → Shape → σ → ForInStep σ

/-- Hands items to a sink in turn until it stops. -/
def feed {α σ : Type} (take : α → σ → ForInStep σ) : List α → σ → ForInStep σ
  | [], s => .yield s
  | a :: rest, s =>
    match take a s with
    | .done s => .done s
    | .yield s => feed take rest s

def collectIds : Sink IdSet :=
  fun _ shape found => .yield (found.insert shape.id)

def stopAtFirst : Sink Bool :=
  fun _ _ _ => .done true

namespace NeighborStep

def follows (step : NeighborStep) (type : RelationshipType) : Bool :=
  match step.labels with
  | some labels => type ∈ labels
  | none => type.isFollowedByDefault

def adjacent (step : NeighborStep) (m : Model) (id : ShapeId) : List ShapeId :=
  match step.direction with
  | .reverse =>
    (((m.reverseNeighbors id).filter fun r => step.follows r.type).map
      Relationship.source).eraseDups
  | _ =>
    (((m.neighbors id).filter fun r => step.follows r.type).map
      Relationship.neighbor).eraseDups

def targets (step : NeighborStep) (m : Model) (id : ShapeId) : List ShapeId :=
  match step.direction with
  | .recursive => BreadthFirst.reach m.index.outgoing.keys (step.adjacent m) id
  | _ => step.adjacent m id

end NeighborStep

/-- What a selector does in one model: from a shape, it hands each result to a sink. -/
structure Flow where
  run : {σ : Type} → Bindings → Shape → Sink σ → σ → ForInStep σ

namespace Flow

def any (flow : Flow) (bindings : Bindings) (shape : Shape) : Bool :=
  (flow.run bindings shape stopAtFirst false).value

def collect (flow : Flow) (bindings : Bindings) (shape : Shape) : IdSet :=
  (flow.run bindings shape collectIds ∅).value

def collectFrom (flow : Flow) (starts : List Shape) : IdSet :=
  (feed (fun start found => flow.run ∅ start collectIds found) starts ∅).value

def filter (test : Bindings → Shape → Bool) : Flow where
  run bindings shape sink s := if test bindings shape then sink bindings shape s else .yield s

def expand (next : Bindings → Shape → List Shape) : Flow where
  run bindings shape sink s := feed (sink bindings) (next bindings shape) s

def bind (name : String) (found : Bindings → Shape → IdSet) : Flow where
  run bindings shape sink s := sink (bindings.bind name (found bindings shape)) shape s

def pass : Flow where
  run bindings shape sink s := sink bindings shape s

def stop : Flow where
  run _ _ _ s := .yield s

def andThen (first second : Flow) : Flow where
  run bindings shape sink s :=
    first.run bindings shape (fun bindings shape s => second.run bindings shape sink s) s

def orElse (first second : Flow) : Flow where
  run bindings shape sink s :=
    match first.run bindings shape sink s with
    | .done s => .done s
    | .yield s => second.run bindings shape sink s

end Flow

mutual

/-- What a stage does. What a `:root` yields is the same everywhere, so it is found once. -/
def Stage.flow (m : Model) : Stage → Flow
  | .type filter => .filter fun _ shape => filter.accepts shape.type
  | .attribute filter => .filter fun _ shape => filter.test shape
  | .neighbor step => .expand fun _ shape => m.shapesAt (step.targets m shape.id)
  | .function .not args =>
    let inner := argumentFlow m args
    .filter fun bindings shape => !inner.any bindings shape
  | .function .test args =>
    let inner := argumentFlow m args
    .filter fun bindings shape => inner.any bindings shape
  | .function .is args => argumentFlow m args
  | .function .in args =>
    let inner := argumentFlow m args
    .filter fun bindings shape => (inner.collect bindings shape).contains shape.id
  | .function .root args =>
    let found := m.shapesAt ((argumentFlow m args).collectFrom m.shapes.entries).entries
    .expand fun _ _ => found
  | .capture name selector =>
    let inner := selectorFlow m selector
    .bind name inner.collect
  | .bind name => .bind name fun _ shape => Sorted.insert shape.id ∅
  | .get name => .expand fun bindings _ => m.shapesAt (bindings.shapesOf name).entries

def pipelineFlow (m : Model) : List Stage → Flow
  | [] => .pass
  | stage :: rest => (stage.flow m).andThen (pipelineFlow m rest)

def selectorFlow (m : Model) : List (List Stage) → Flow
  | [] => .stop
  | pipeline :: rest => (pipelineFlow m pipeline).orElse (selectorFlow m rest)

def argumentFlow (m : Model) : List (List (List Stage)) → Flow
  | [] => .stop
  | selector :: rest => (selectorFlow m selector).orElse (argumentFlow m rest)

end

namespace Selector

def flow (selector : Selector) (m : Model) : Flow :=
  selectorFlow m selector

def push (selector : Selector) (m : Model) {σ : Type} (bindings : Bindings) (shape : Shape)
    (sink : Sink σ) (s : σ) : ForInStep σ :=
  (selector.flow m).run bindings shape sink s

def collect (selector : Selector) (m : Model) (bindings : Bindings) (shape : Shape) : IdSet :=
  (selector.flow m).collect bindings shape

def any (selector : Selector) (m : Model) (bindings : Bindings) (shape : Shape) : Bool :=
  (selector.flow m).any bindings shape

end Selector

end SchemaQuery

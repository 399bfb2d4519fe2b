import SchemaQuery.Config.Basic
import SchemaQuery.Selector.FastPath

namespace SchemaQuery

structure Match where
  shape : Shape
  bindings : Bindings
deriving Inhabited

def Match.id (m : Match) : ShapeId :=
  m.shape.id

inductive Candidates where
  | model
  | scoped (ids : List ShapeId)

namespace Search

/-- Keeps the first match of each shape, and stops at the limit. What is bound is only kept if it is
to be recorded. -/
def keep (limit : Option Nat) (record : Bool) : Sink (Sorted Match.id) :=
  fun bindings shape found =>
    let found :=
      if found.contains shape.id then found
      else found.insert ⟨shape, if record then bindings else ∅⟩
    match limit with
    | none => .yield found
    | some limit => if limit ≤ found.size then .done found else .yield found

def starts (m : Model) (optimize : Bool) (candidates : Candidates) (pipeline : Pipeline) :
    List Shape :=
  match candidates with
  | .scoped ids => m.shapesAt (Sorted.ofList ids : IdSet).entries
  | .model =>
    match optimize, pipeline.fastPath? m with
    | true, some ids => m.shapesAt ids
    | _, _ => m.shapes.entries

def tryPipeline (m : Model) (optimize : Bool) (candidates : Candidates) (limit : Option Nat)
    (pipeline : Pipeline) (found : Sorted Match.id) (record : Bool := true) :
    ForInStep (Sorted Match.id) :=
  let flow := pipelineFlow m pipeline
  feed (fun start found => flow.run ∅ start (keep limit record) found)
    (starts m optimize candidates pipeline) found

def run (m : Model) (config : SelectorConfig) (selector : Selector) (candidates : Candidates)
    (record : Bool := true) : List Match :=
  if config.resultLimit = some 0 then
    []
  else
    (feed (fun pipeline found =>
      tryPipeline m config.optimize candidates config.resultLimit pipeline found record) selector
      ∅).value.entries

end Search

namespace Selector

def matchesWith (selector : Selector) (m : Model) (config : SelectorConfig) : List Match :=
  Search.run m config selector .model true

def selectWith (selector : Selector) (m : Model) (config : SelectorConfig) : List Shape :=
  (Search.run m config selector .model false).map Match.shape

def selectFrom (selector : Selector) (m : Model) (ids : List ShapeId) : List Shape :=
  (Search.run m default selector (.scoped ids) false).map Match.shape

end Selector

end SchemaQuery

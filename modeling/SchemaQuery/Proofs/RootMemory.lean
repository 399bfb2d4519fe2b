import SchemaQuery.Proofs.Feed
import SchemaQuery.Selector.Search

/-!
Evaluation with a memory. What a `:root` yields is found out when the stage is first met, and is
remembered for the rest of the evaluation under the place of the stage in the selector. Everything
else is evaluated as it is without a memory, and what was found out before is carried along.
-/

namespace SchemaQuery

/-- Where something stands in a selector, the innermost index first: that of a stage in its
pipeline, of the pipeline in its selector, of this selector among those that another stage holds,
and so on. No two stages of a selector have the same place. -/
abbrev Place := List Nat

def Stage.held : Stage → List Selector
  | .function _ args => args
  | .capture _ selector => [selector]
  | _ => []

mutual

def Selector.selectorAt? (selector : Selector) : Place → Option Selector
  | [] => some selector
  | k :: place => (Selector.stageAt? selector place).bind fun stage => stage.held[k]?

def Selector.stageAt? (selector : Selector) : Place → Option Stage
  | i :: p :: place =>
    (Selector.selectorAt? selector place).bind fun inner =>
      inner[p]?.bind fun pipeline => pipeline[i]?
  | _ => none

end

theorem Selector.selectorAt?_cons {whole inner : Selector} {place : Place} {stage : Stage}
    (hstage : whole.stageAt? place = some stage) {k : Nat}
    (hinner : stage.held[k]? = some inner) : whole.selectorAt? (k :: place) = some inner := by
  rw [selectorAt?, hstage]
  exact hinner

theorem Selector.stageAt?_cons {whole inner : Selector} {place : Place} {stage : Stage}
    (hinner : whole.selectorAt? place = some inner) {p i : Nat}
    {pipeline : Pipeline} (hpipeline : inner[p]? = some pipeline)
    (hstage : pipeline[i]? = some stage) : whole.stageAt? (i :: p :: place) = some stage := by
  rw [stageAt?, hinner, Option.bind_some, hpipeline]
  exact hstage

/-- The sets of ids found so far, each under the place of the `:root` that yields them. -/
abbrev RootSets := List (Place × IdSet)

/-- One time that a `:root` is met: where it stands, with what bound and from which shape it is met,
what is remembered by then, and what it hands on. -/
structure RootPush where
  place : Place
  bindings : Bindings
  shape : Shape
  roots : RootSets
  offered : List Shape

/-- What one evaluation keeps in common for all its paths. The log of when a `:root` was met is
written only. -/
structure Evaluation where
  roots : RootSets
  pushes : List RootPush

namespace Evaluation

def start : Evaluation := ⟨[], []⟩

def remember (e : Evaluation) (place : Place) (found : IdSet) : Evaluation :=
  { e with roots := (place, found) :: e.roots }

def log (e : Evaluation) (place : Place) (bindings : Bindings) (shape : Shape)
    (offered : List Shape) : Evaluation :=
  { e with pushes := e.pushes ++ [⟨place, bindings, shape, e.roots, offered⟩] }

end Evaluation

def Sink.beside {σ : Type} (sink : Sink σ) : Sink (Evaluation × σ) :=
  fun bindings shape (e, s) => mapAnswer (Prod.mk e) (sink bindings shape s)

/-- What a selector does in the course of an evaluation. The sink is part of the same evaluation,
and may meet a `:root` as well. -/
structure MemoFlow where
  run : {σ : Type} → Bindings → Shape → Sink (Evaluation × σ) → Evaluation × σ →
    ForInStep (Evaluation × σ)

namespace MemoFlow

def any (flow : MemoFlow) (bindings : Bindings) (shape : Shape) (e : Evaluation) :
    Evaluation × Bool :=
  (flow.run bindings shape stopAtFirst.beside (e, false)).value

def collect (flow : MemoFlow) (bindings : Bindings) (shape : Shape) (e : Evaluation) :
    Evaluation × IdSet :=
  (flow.run bindings shape collectIds.beside (e, ∅)).value

def collectFrom (flow : MemoFlow) (starts : List Shape) (e : Evaluation) : Evaluation × IdSet :=
  (feed (fun start state => flow.run ∅ start collectIds.beside state) starts (e, ∅)).value

/-- Whether one of some flows leads from a shape to itself. They are tried until one does. -/
def anyReturns (bindings : Bindings) (shape : Shape) :
    List MemoFlow → Evaluation → Evaluation × Bool
  | [], e => (e, false)
  | flow :: rest, e =>
    match flow.collect bindings shape e with
    | (e, found) =>
      if found.contains shape.id then (e, true) else anyReturns bindings shape rest e

def ofFlow (flow : Flow) : MemoFlow where
  run bindings shape sink state := flow.run bindings shape sink state

/-- Finds something out in the course of the evaluation, and goes on by what it is. -/
def consult {α : Type} (ask : Bindings → Shape → Evaluation → Evaluation × α) (go : α → Flow) :
    MemoFlow where
  run bindings shape sink state :=
    match ask bindings shape state.1 with
    | (e, a) => (go a).run bindings shape sink (e, state.2)

def andThen (first second : MemoFlow) : MemoFlow where
  run bindings shape sink state :=
    first.run bindings shape (fun bindings shape state => second.run bindings shape sink state)
      state

def orElse (first second : MemoFlow) : MemoFlow where
  run bindings shape sink state :=
    match first.run bindings shape sink state with
    | .done state => .done state
    | .yield state => second.run bindings shape sink state

def inTurn (flows : List MemoFlow) : MemoFlow :=
  flows.foldr orElse (ofFlow .stop)

/-- What a `:root` hands on: the shapes that are remembered for it or, if it is met for the first
time, those that its arguments yield, which are then remembered. -/
def rootShapes (m : Model) (place : Place) (args : MemoFlow) (bindings : Bindings) (shape : Shape)
    (e : Evaluation) : Evaluation × List Shape :=
  match e.roots.lookup place with
  | some found =>
    let offered := m.shapesAt found.entries
    (e.log place bindings shape offered, offered)
  | none =>
    match args.collectFrom m.shapes.entries e with
    | (e, found) =>
      let offered := m.shapesAt found.entries
      ((e.remember place found).log place bindings shape offered, offered)

end MemoFlow

mutual

def Stage.memoFlow (m : Model) (place : Place) : Stage → MemoFlow
  | .type filter => .ofFlow ((Stage.type filter).flow m)
  | .attribute filter => .ofFlow ((Stage.attribute filter).flow m)
  | .neighbor step => .ofFlow ((Stage.neighbor step).flow m)
  | .function .not args =>
    .consult (MemoFlow.inTurn (argumentMemoFlows m place 0 args)).any
      fun found => if found then .stop else .pass
  | .function .test args =>
    .consult (MemoFlow.inTurn (argumentMemoFlows m place 0 args)).any
      fun found => if found then .pass else .stop
  | .function .is args => .inTurn (argumentMemoFlows m place 0 args)
  | .function .in args =>
    .consult (fun bindings shape =>
        MemoFlow.anyReturns bindings shape (argumentMemoFlows m place 0 args))
      fun found => if found then .pass else .stop
  | .function .root args =>
    .consult (MemoFlow.rootShapes m place (.inTurn (argumentMemoFlows m place 0 args)))
      fun offered => .expand fun _ _ => offered
  | .capture name selector =>
    .consult (selectorMemoFlow m (0 :: place) 0 selector).collect
      fun found => .bind name fun _ _ => found
  | .bind name => .ofFlow ((Stage.bind name).flow m)
  | .get name => .ofFlow ((Stage.get name).flow m)

def pipelineMemoFlow (m : Model) (place : Place) (i : Nat) : List Stage → MemoFlow
  | [] => .ofFlow .pass
  | stage :: rest => (stage.memoFlow m (i :: place)).andThen (pipelineMemoFlow m place (i + 1) rest)

def selectorMemoFlow (m : Model) (place : Place) (p : Nat) : List (List Stage) → MemoFlow
  | [] => .ofFlow .stop
  | pipeline :: rest =>
    (pipelineMemoFlow m (p :: place) 0 pipeline).orElse (selectorMemoFlow m place (p + 1) rest)

def argumentMemoFlows (m : Model) (place : Place) (k : Nat) :
    List (List (List Stage)) → List MemoFlow
  | [] => []
  | selector :: rest =>
    selectorMemoFlow m (k :: place) 0 selector :: argumentMemoFlows m place (k + 1) rest

end

def Selector.pushWithin (selector : Selector) (m : Model) {σ : Type} (bindings : Bindings)
    (shape : Shape) (sink : Sink σ) (state : Evaluation × σ) : ForInStep (Evaluation × σ) :=
  (selectorMemoFlow m [] 0 selector).run bindings shape sink.beside state

namespace Search

def tryPipelineWithin (m : Model) (optimize : Bool) (candidates : Candidates) (limit : Option Nat)
    (pipeline : Pipeline) (p : Nat) (record : Bool) (state : Evaluation × Sorted Match.id) :
    ForInStep (Evaluation × Sorted Match.id) :=
  let flow := pipelineMemoFlow m [p] 0 pipeline
  feed (fun start state => flow.run ∅ start (keep limit record).beside state)
    (starts m optimize candidates pipeline) state

def runWithin (m : Model) (config : SelectorConfig) (selector : Selector) (candidates : Candidates)
    (record : Bool := true) : Evaluation × List Match :=
  if config.resultLimit = some 0 then
    (.start, [])
  else
    let ran := (feed (fun tried state =>
      tryPipelineWithin m config.optimize candidates config.resultLimit tried.1 tried.2 record
        state) selector.zipIdx (.start, ∅)).value
    (ran.1, ran.2.entries)

end Search

end SchemaQuery

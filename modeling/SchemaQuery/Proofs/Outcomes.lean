import SchemaQuery.Proofs.Feed
import SchemaQuery.Proofs.ModelLookup

/-!
What a selector yields from a shape, as a list. Evaluation hands this list to the sink one by one
until the sink stops it.
-/

namespace SchemaQuery

structure Outcome where
  bindings : Bindings
  shape : Shape
deriving DecidableEq, Inhabited

mutual

def Stage.outcomes (m : Model) (bindings : Bindings) (shape : Shape) : Stage → List Outcome
  | .type filter => if filter.accepts shape.type then [⟨bindings, shape⟩] else []
  | .attribute filter => if filter.test shape then [⟨bindings, shape⟩] else []
  | .neighbor step => (m.shapesAt (step.targets m shape.id)).map fun next => ⟨bindings, next⟩
  | .function .not args =>
    if (argumentOutcomes m bindings shape args).isEmpty then [⟨bindings, shape⟩] else []
  | .function .test args =>
    if (argumentOutcomes m bindings shape args).isEmpty then [] else [⟨bindings, shape⟩]
  | .function .is args => argumentOutcomes m bindings shape args
  | .function .in args =>
    if shape.id ∈ (argumentOutcomes m bindings shape args).map (·.shape.id) then
      [⟨bindings, shape⟩]
    else
      []
  | .function .root args =>
    (m.shapes.entries.filter fun found => m.shapes.entries.any fun start =>
      found.id ∈ (argumentOutcomes m ∅ start args).map (·.shape.id)).map
        fun found => ⟨bindings, found⟩
  | .capture name selector =>
    let found := (selectorOutcomes m bindings shape selector).map (·.shape.id)
    [⟨bindings.bind name (.ofList found), shape⟩]
  | .bind name => [⟨bindings.bind name (.ofList [shape.id]), shape⟩]
  | .get name =>
    (m.shapesAt (bindings.shapesOf name).entries).map fun found => ⟨bindings, found⟩

/-- What stages yield one after the other: each goes on from all that the one before yields. -/
def pipelineOutcomes (m : Model) (bindings : Bindings) (shape : Shape) :
    List Stage → List Outcome
  | [] => [⟨bindings, shape⟩]
  | stage :: rest =>
    (stage.outcomes m bindings shape).flatMap fun o => pipelineOutcomes m o.bindings o.shape rest

def selectorOutcomes (m : Model) (bindings : Bindings) (shape : Shape) :
    List (List Stage) → List Outcome
  | [] => []
  | pipeline :: rest =>
    pipelineOutcomes m bindings shape pipeline ++ selectorOutcomes m bindings shape rest

def argumentOutcomes (m : Model) (bindings : Bindings) (shape : Shape) :
    List (List (List Stage)) → List Outcome
  | [] => []
  | selector :: rest =>
    selectorOutcomes m bindings shape selector ++ argumentOutcomes m bindings shape rest

end

def Selector.outcomes (selector : Selector) (m : Model) (bindings : Bindings) (shape : Shape) :
    List Outcome :=
  selectorOutcomes m bindings shape selector

/-- What a flow hands on to a sink that never stops it. -/
def Flow.handed (flow : Flow) (bindings : Bindings) (shape : Shape) : List Outcome :=
  (flow.run bindings shape (fun bindings shape handed => .yield (handed ++ [⟨bindings, shape⟩]))
    []).value

def Sink.take {σ : Type} (sink : Sink σ) (o : Outcome) : σ → ForInStep σ :=
  sink o.bindings o.shape

/-- A flow hands a sink certain outcomes, one by one until the sink stops it. -/
def Flow.Delivers (flow : Flow) (outcomes : Bindings → Shape → List Outcome) : Prop :=
  ∀ ⦃σ : Type⦄ (bindings : Bindings) (shape : Shape) (sink : Sink σ) (s : σ),
    flow.run bindings shape sink s = feed sink.take (outcomes bindings shape) s

namespace Flow.Delivers

variable {flow first second : Flow} {outcomes next : Bindings → Shape → List Outcome}

theorem congr (h : flow.Delivers outcomes)
    (heq : ∀ bindings shape, outcomes bindings shape = next bindings shape) :
    flow.Delivers next := by
  intro σ bindings shape sink s
  rw [h bindings shape sink s, heq]

theorem filter (test : Bindings → Shape → Bool) :
    (Flow.filter test).Delivers fun bindings shape =>
      if test bindings shape then [⟨bindings, shape⟩] else [] := by
  intro σ bindings shape sink s
  simp only [Flow.filter]
  split
  · exact (feed_singleton sink.take ⟨bindings, shape⟩ s).symm
  · rfl

theorem expand (next : Bindings → Shape → List Shape) :
    (Flow.expand next).Delivers fun bindings shape =>
      (next bindings shape).map fun found => ⟨bindings, found⟩ := by
  intro σ bindings shape sink s
  exact (feed_map sink.take (fun found => ⟨bindings, found⟩) _ s).symm

theorem bind (name : String) (found : Bindings → Shape → IdSet) :
    (Flow.bind name found).Delivers fun bindings shape =>
      [⟨bindings.bind name (found bindings shape), shape⟩] := by
  intro σ bindings shape sink s
  exact (feed_singleton sink.take ⟨_, shape⟩ s).symm

theorem pass : Flow.pass.Delivers fun bindings shape => [⟨bindings, shape⟩] := by
  intro σ bindings shape sink s
  exact (feed_singleton sink.take ⟨bindings, shape⟩ s).symm

theorem stop : Flow.stop.Delivers fun _ _ => [] := by
  intro σ bindings shape sink s
  rfl

theorem andThen (hfirst : first.Delivers outcomes) (hsecond : second.Delivers next) :
    (first.andThen second).Delivers fun bindings shape =>
      (outcomes bindings shape).flatMap fun o => next o.bindings o.shape := by
  intro σ bindings shape sink s
  rw [feed_flatMap]
  simp only [Flow.andThen]
  rw [hfirst]
  apply feed_congr
  intro o _
  funext s
  exact hsecond o.bindings o.shape sink s

theorem orElse (hfirst : first.Delivers outcomes) (hsecond : second.Delivers next) :
    (first.orElse second).Delivers fun bindings shape =>
      outcomes bindings shape ++ next bindings shape := by
  intro σ bindings shape sink s
  rw [feed_append]
  simp only [Flow.orElse]
  rw [hfirst]
  cases feed sink.take (outcomes bindings shape) s with
  | done s => rfl
  | yield s => exact hsecond bindings shape sink s

theorem handed_eq (h : flow.Delivers outcomes) (bindings : Bindings) (shape : Shape) :
    flow.handed bindings shape = outcomes bindings shape := by
  have hfeed (os handed : List Outcome) :
      feed (Sink.take fun bindings shape handed => .yield (handed ++ [⟨bindings, shape⟩])) os
        handed = .yield (handed ++ os) := by
    induction os generalizing handed with
    | nil => rw [feed, List.append_nil]
    | cons o os ih =>
        refine (ih (handed ++ [o])).trans ?_
        rw [List.append_assoc, List.singleton_append]
  rw [Flow.handed, h, hfeed]
  rfl

theorem any_eq (h : flow.Delivers outcomes) (bindings : Bindings) (shape : Shape) :
    flow.any bindings shape = !(outcomes bindings shape).isEmpty := by
  rw [Flow.any, h]
  cases outcomes bindings shape <;> rfl

theorem feed_collectIds (os : List Outcome) (found : IdSet) :
    feed (Sink.take collectIds) os found =
      .yield ((os.map (·.shape.id)).foldl (fun s a => s.insert a) found) := by
  induction os generalizing found with
  | nil => rfl
  | cons o os ih => exact ih (found.insert o.shape.id)

theorem collect_eq (h : flow.Delivers outcomes) (bindings : Bindings) (shape : Shape) :
    flow.collect bindings shape = .ofList ((outcomes bindings shape).map (·.shape.id)) := by
  rw [Flow.collect, h, feed_collectIds]
  rfl

theorem collectFrom_eq (h : flow.Delivers outcomes) (starts : List Shape) :
    flow.collectFrom starts =
      .ofList ((starts.flatMap (outcomes ∅)).map (·.shape.id)) := by
  have hfeed : feed (fun start found => flow.run ∅ start collectIds found) starts ∅ =
      feed (Sink.take collectIds) (starts.flatMap (outcomes ∅)) ∅ := by
    rw [feed_flatMap]
    apply feed_congr
    intro start _
    funext found
    exact h ∅ start collectIds found
  rw [Flow.collectFrom, hfeed, feed_collectIds]
  rfl

end Flow.Delivers

/-- What a `:root` finds are the shapes of the model that its arguments yield from anywhere. -/
theorem shapesAt_collectFrom {m : Model} {flow : Flow}
    {outcomes : Bindings → Shape → List Outcome} (h : flow.Delivers outcomes) :
    m.shapesAt (flow.collectFrom m.shapes.entries).entries =
      m.shapes.entries.filter fun found => m.shapes.entries.any fun start =>
        found.id ∈ (outcomes ∅ start).map (·.shape.id) := by
  rw [Model.shapesAt_eq_filter (flow.collectFrom m.shapes.entries).ordered, h.collectFrom_eq]
  congr 1
  funext found
  rw [Bool.eq_iff_iff]
  simp only [SortedSet.mem_ofList, List.mem_map, List.mem_flatMap, List.any_eq_true,
    decide_eq_true_eq]
  constructor
  · rintro ⟨o, ⟨start, hstart, ho⟩, hid⟩
    exact ⟨start, hstart, o, ho, hid⟩
  · rintro ⟨start, hstart, o, ho, hid⟩
    exact ⟨o, ⟨start, hstart, ho⟩, hid⟩

section Nesting

variable {m : Model}

theorem pipelineFlow_delivers {pipeline : Pipeline}
    (h : ∀ stage ∈ pipeline, (stage.flow m).Delivers (stage.outcomes m)) :
    (pipelineFlow m pipeline).Delivers fun bindings shape =>
      pipelineOutcomes m bindings shape pipeline := by
  induction pipeline with
  | nil => exact Flow.Delivers.pass
  | cons stage rest ih =>
      obtain ⟨hstage, hrest⟩ := List.forall_mem_cons.mp h
      exact hstage.andThen (ih hrest)

theorem selectorFlow_delivers {selector : Selector}
    (h : ∀ pipeline ∈ selector, ∀ stage ∈ pipeline,
      (stage.flow m).Delivers (stage.outcomes m)) :
    (selectorFlow m selector).Delivers (selector.outcomes m) := by
  induction selector with
  | nil => exact Flow.Delivers.stop
  | cons pipeline rest ih =>
      obtain ⟨hpipeline, hrest⟩ := List.forall_mem_cons.mp h
      exact (pipelineFlow_delivers hpipeline).orElse (ih hrest)

theorem argumentFlow_delivers {args : List Selector}
    (h : ∀ selector ∈ args, ∀ pipeline ∈ selector, ∀ stage ∈ pipeline,
      (stage.flow m).Delivers (stage.outcomes m)) :
    (argumentFlow m args).Delivers fun bindings shape =>
      argumentOutcomes m bindings shape args := by
  induction args with
  | nil => exact Flow.Delivers.stop
  | cons selector rest ih =>
      obtain ⟨hselector, hrest⟩ := List.forall_mem_cons.mp h
      exact (selectorFlow_delivers hselector).orElse (ih hrest)

end Nesting

theorem Stage.flow_delivers (m : Model) (stage : Stage) :
    (stage.flow m).Delivers (stage.outcomes m) := by
  induction stage using Stage.inductionOn with
  | type filter => exact Flow.Delivers.filter _
  | «attribute» filter => exact Flow.Delivers.filter _
  | neighbor step => exact Flow.Delivers.expand _
  | bind name => exact Flow.Delivers.bind name _
  | get name => exact Flow.Delivers.expand _
  | capture name selector ih =>
      have hselector := selectorFlow_delivers ih
      apply (Flow.Delivers.bind name _).congr
      intro bindings shape
      rw [hselector.collect_eq]
      rfl
  | function kind args ih =>
      have hargs := argumentFlow_delivers ih
      cases kind with
      | is => exact hargs
      | not =>
          apply (Flow.Delivers.filter _).congr
          intro bindings shape
          rw [hargs.any_eq, Bool.not_not]
          rfl
      | test =>
          apply (Flow.Delivers.filter _).congr
          intro bindings shape
          rw [hargs.any_eq, Stage.outcomes]
          cases (argumentOutcomes m bindings shape args).isEmpty <;> rfl
      | «in» =>
          apply (Flow.Delivers.filter _).congr
          intro bindings shape
          rw [hargs.collect_eq, Stage.outcomes]
          simp only [SortedSet.contains_iff, SortedSet.mem_ofList]
      | root =>
          apply (Flow.Delivers.expand _).congr
          intro bindings shape
          rw [shapesAt_collectFrom hargs]
          rfl

theorem Pipeline.flow_delivers (pipeline : Pipeline) (m : Model) :
    (pipelineFlow m pipeline).Delivers fun bindings shape =>
      pipelineOutcomes m bindings shape pipeline :=
  pipelineFlow_delivers fun stage _ => stage.flow_delivers m

theorem Selector.flow_delivers (selector : Selector) (m : Model) :
    (selector.flow m).Delivers (selector.outcomes m) :=
  selectorFlow_delivers fun _ _ stage _ => stage.flow_delivers m

section Parts

variable {m : Model} {bindings : Bindings} {shape : Shape}

theorem selectorOutcomes_eq_flatMap (selector : Selector) :
    selectorOutcomes m bindings shape selector =
      selector.flatMap (pipelineOutcomes m bindings shape) := by
  induction selector with
  | nil => rfl
  | cons pipeline rest ih => rw [selectorOutcomes, ih, List.flatMap_cons]

theorem argumentOutcomes_eq_flatMap (args : List Selector) :
    argumentOutcomes m bindings shape args =
      args.flatMap (selectorOutcomes m bindings shape) := by
  induction args with
  | nil => rfl
  | cons selector rest ih => rw [argumentOutcomes, ih, List.flatMap_cons]

theorem pipelineOutcomes_append (before after : Pipeline) :
    pipelineOutcomes m bindings shape (before ++ after) =
      (pipelineOutcomes m bindings shape before).flatMap fun o =>
        pipelineOutcomes m o.bindings o.shape after := by
  induction before generalizing bindings shape with
  | nil => simp [pipelineOutcomes]
  | cons stage rest ih =>
      simp only [List.cons_append, pipelineOutcomes, ih, List.flatMap_assoc]

theorem pipelineOutcomes_singleton (stage : Stage) :
    pipelineOutcomes m bindings shape [stage] = stage.outcomes m bindings shape :=
  List.flatMap_singleton' _

theorem selectorOutcomes_singleton (pipeline : Pipeline) :
    selectorOutcomes m bindings shape [pipeline] = pipelineOutcomes m bindings shape pipeline :=
  List.append_nil _

theorem argumentOutcomes_singleton (pipeline : Pipeline) :
    argumentOutcomes m bindings shape [[pipeline]] = pipelineOutcomes m bindings shape pipeline := by
  rw [argumentOutcomes, argumentOutcomes, List.append_nil, selectorOutcomes_singleton]

end Parts

def StaysIn (m : Model) (outcomes : Bindings → Shape → List Outcome) : Prop :=
  ∀ bindings, ∀ shape ∈ m.shapes.entries, ∀ o ∈ outcomes bindings shape,
    o.shape ∈ m.shapes.entries

theorem StaysIn.pipeline {m : Model} {pipeline : Pipeline}
    (h : ∀ stage ∈ pipeline, StaysIn m (stage.outcomes m)) :
    StaysIn m fun bindings shape => pipelineOutcomes m bindings shape pipeline := by
  induction pipeline with
  | nil =>
      intro bindings shape hshape o ho
      rw [List.mem_singleton.mp ho]
      exact hshape
  | cons stage rest ih =>
      obtain ⟨hstage, hrest⟩ := List.forall_mem_cons.mp h
      intro bindings shape hshape o ho
      obtain ⟨middle, hmiddle, ho⟩ := List.mem_flatMap.mp ho
      exact ih hrest middle.bindings middle.shape (hstage bindings shape hshape middle hmiddle) o ho

theorem Stage.staysIn (m : Model) (stage : Stage) : StaysIn m (stage.outcomes m) := by
  induction stage using Stage.inductionOn with
  | type | «attribute» | neighbor | capture | bind | get =>
      intro bindings shape hshape o ho
      simp only [outcomes] at ho
      grind [Model.mem_shapesAt]
  | function kind args ih =>
      intro bindings shape hshape o ho
      cases kind with
      | is =>
          change o ∈ argumentOutcomes m bindings shape args at ho
          rw [argumentOutcomes_eq_flatMap] at ho
          obtain ⟨selector, hselector, ho⟩ := List.mem_flatMap.mp ho
          rw [selectorOutcomes_eq_flatMap] at ho
          obtain ⟨pipeline, hpipeline, ho⟩ := List.mem_flatMap.mp ho
          exact StaysIn.pipeline (ih selector hselector pipeline hpipeline) bindings shape hshape o ho
      | not | test | «in» | root =>
          simp only [outcomes] at ho
          grind

theorem Pipeline.staysIn (m : Model) (pipeline : Pipeline) :
    StaysIn m fun bindings shape => pipelineOutcomes m bindings shape pipeline :=
  StaysIn.pipeline fun stage _ => stage.staysIn m

end SchemaQuery

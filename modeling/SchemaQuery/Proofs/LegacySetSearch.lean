import Mathlib.Data.List.Basic
import SchemaQuery.Proofs.FastPath
import SchemaQuery.Proofs.LegacySets
import SchemaQuery.Proofs.Outcomes

namespace SchemaQuery

theorem ShapeType.agrees_asList (expected type : ShapeType) :
    expected.agrees type.asList = expected.agrees type := by
  cases type with
  | aggregate type =>
      cases type with
      | set =>
          cases expected with
          | aggregate expected => cases expected <;> rfl
          | simple | member | service | resource | operation => rfl
      | list | map | «structure» | union => rfl
  | simple | member | service | resource | operation => rfl

@[simp] theorem TypeFilter.accepts_asList (filter : TypeFilter) (type : ShapeType) :
    filter.accepts type.asList = filter.accepts type := by
  cases filter with
  | exact expected => exact expected.agrees_asList type
  | any => rfl
  | number | simpleType | collection =>
      cases type with
      | aggregate type => cases type <;> rfl
      | simple | member | service | resource | operation => rfl

@[simp] theorem AttributeKey.values_asList (shape : Shape) (key : AttributeKey) :
    values shape.asList key = values shape key := by
  cases key <;> simp [values]

@[simp] theorem AttributeFilter.test_asList (filter : AttributeFilter) (shape : Shape) :
    filter.test shape.asList = filter.test shape := by
  simp [test]

@[simp] theorem Index.edges_asLists (shapes : Sorted Shape.id) :
    edges (asLists shapes) = edges shapes := by
  simp [edges, List.flatMap_map]

namespace Model

variable {m : Model}

@[simp] theorem contains_asList (m : Model) : m.asList.contains = m.contains := by
  funext id
  exact contains_asLists m.shapes id

theorem shapesAt_asList (m : Model) (ids : List ShapeId) :
    m.asList.shapesAt ids = (m.shapesAt ids).map Shape.asList := by
  simp only [shapesAt, List.map_filterMap, find?_asList]

theorem outgoing_asList (hindex : m.index = .ofShapes m.shapes) :
    m.asList.index.outgoing = m.index.outgoing := by
  simp [hindex, asList, Index.ofShapes]

theorem incoming_asList (hindex : m.index = .ofShapes m.shapes) :
    m.asList.index.incoming = m.index.incoming := by
  simp [hindex, asList, Index.ofShapes]

theorem shapesWithTrait_asList (hindex : m.index = .ofShapes m.shapes) :
    m.asList.index.shapesWithTrait = m.index.shapesWithTrait := by
  funext trait
  simp [hindex, asList, Index.shapesWithTrait_ofShapes, List.filter_map, Function.comp_def]

end Model

theorem NeighborStep.targets_asList {m : Model} (hindex : m.index = .ofShapes m.shapes)
    (step : NeighborStep) : step.targets m.asList = step.targets m := by
  have hadjacent : step.adjacent m.asList = step.adjacent m := by
    funext id
    simp only [adjacent, Model.neighbors, Model.reverseNeighbors, Model.outgoing_asList hindex,
      Model.incoming_asList hindex]
  funext id
  simp only [targets, hadjacent, Model.outgoing_asList hindex]

def Outcome.asList (o : Outcome) : Outcome :=
  ⟨o.bindings, o.shape.asList⟩

def Respelt (outcomes respelt : Bindings → Shape → List Outcome) : Prop :=
  ∀ bindings shape, respelt bindings shape.asList = (outcomes bindings shape).map Outcome.asList

namespace Respelt

variable {m : Model} {outcomes respelt next respeltNext : Bindings → Shape → List Outcome}

theorem map_id_eq (h : Respelt outcomes respelt) (bindings : Bindings) (shape : Shape) :
    (respelt bindings shape.asList).map (·.shape.id) =
      (outcomes bindings shape).map (·.shape.id) := by
  rw [h, List.map_map]
  rfl

theorem isEmpty_eq (h : Respelt outcomes respelt) (bindings : Bindings) (shape : Shape) :
    (respelt bindings shape.asList).isEmpty = (outcomes bindings shape).isEmpty := by
  rw [h, List.isEmpty_map]

theorem pipeline {pipeline : Pipeline}
    (h : ∀ stage ∈ pipeline, Respelt (stage.outcomes m) (stage.outcomes m.asList)) :
    Respelt (fun bindings shape => pipelineOutcomes m bindings shape pipeline)
      fun bindings shape => pipelineOutcomes m.asList bindings shape pipeline := by
  induction pipeline with
  | nil => exact fun _ _ => rfl
  | cons stage rest ih =>
      obtain ⟨hstage, hrest⟩ := List.forall_mem_cons.mp h
      intro bindings shape
      have houtcomes : stage.outcomes m.asList bindings shape.asList = _ := hstage bindings shape
      simp only [pipelineOutcomes, houtcomes, List.flatMap_map, List.map_flatMap]
      congr 1
      funext o
      exact ih hrest o.bindings o.shape

theorem append (h : Respelt outcomes respelt) (hnext : Respelt next respeltNext) :
    Respelt (fun bindings shape => outcomes bindings shape ++ next bindings shape)
      fun bindings shape => respelt bindings shape ++ respeltNext bindings shape := by
  intro bindings shape
  simp only [List.map_append, h bindings shape, hnext bindings shape]

theorem selector {selector : Selector}
    (h : ∀ pipeline ∈ selector, ∀ stage ∈ pipeline,
      Respelt (stage.outcomes m) (stage.outcomes m.asList)) :
    Respelt (selector.outcomes m) (selector.outcomes m.asList) := by
  induction selector with
  | nil => exact fun _ _ => rfl
  | cons first rest ih =>
      obtain ⟨hfirst, hrest⟩ := List.forall_mem_cons.mp h
      exact (pipeline hfirst).append (ih hrest)

theorem arguments {args : List Selector}
    (h : ∀ selector ∈ args, ∀ pipeline ∈ selector, ∀ stage ∈ pipeline,
      Respelt (stage.outcomes m) (stage.outcomes m.asList)) :
    Respelt (fun bindings shape => argumentOutcomes m bindings shape args)
      fun bindings shape => argumentOutcomes m.asList bindings shape args := by
  induction args with
  | nil => exact fun _ _ => rfl
  | cons first rest ih =>
      obtain ⟨hfirst, hrest⟩ := List.forall_mem_cons.mp h
      exact (selector hfirst).append (ih hrest)

end Respelt

theorem Stage.respelt {m : Model} (hindex : m.index = .ofShapes m.shapes) (stage : Stage) :
    Respelt (stage.outcomes m) (stage.outcomes m.asList) := by
  induction stage using Stage.inductionOn with
  | type filter | «attribute» filter =>
      intro bindings shape
      simp only [outcomes, Shape.type_asList, TypeFilter.accepts_asList,
        AttributeFilter.test_asList]
      split <;> rfl
  | neighbor step =>
      intro bindings shape
      simp only [outcomes, Shape.id_asList, NeighborStep.targets_asList hindex,
        Model.shapesAt_asList, List.map_map]
      rfl
  | bind name => exact fun _ _ => rfl
  | get name =>
      intro bindings shape
      simp only [outcomes, Model.shapesAt_asList, List.map_map]
      rfl
  | capture name selector ih =>
      intro bindings shape
      have hids : (selectorOutcomes m.asList bindings shape.asList selector).map (·.shape.id) = _ :=
        (Respelt.selector ih).map_id_eq bindings shape
      simp only [outcomes, hids]
      rfl
  | function kind args ih =>
      have hargs := Respelt.arguments ih
      intro bindings shape
      cases kind with
      | is => exact hargs bindings shape
      | not | test =>
          simp only [outcomes, hargs.isEmpty_eq bindings shape]
          split <;> rfl
      | «in» =>
          simp only [outcomes, hargs.map_id_eq bindings shape, Shape.id_asList]
          split <;> rfl
      | root =>
          -- only the ids of what the arguments yield decide what is found
          have hids (start : Shape) := hargs.map_id_eq ∅ start
          simp only [outcomes, Model.entries_asList, List.filter_map, List.any_map, List.map_map,
            Function.comp_def, hids, Shape.id_asList]
          rfl

theorem Pipeline.respelt {m : Model} (hindex : m.index = .ofShapes m.shapes)
    (pipeline : Pipeline) :
    Respelt (fun bindings shape => pipelineOutcomes m bindings shape pipeline)
      fun bindings shape => pipelineOutcomes m.asList bindings shape pipeline :=
  Respelt.pipeline fun stage _ => stage.respelt hindex

theorem TypeFilter.map_shapesAt_fastPath? {m : Model} (hindex : m.index = .ofShapes m.shapes)
    (filter : TypeFilter) :
    (filter.fastPath? m).map m.shapesAt =
      if filter = .any then none
      else some (m.shapes.entries.filter fun shape => filter.accepts shape.type) := by
  cases hfast : filter.fastPath? m with
  | none =>
      have hany : filter = .any := by cases filter <;> first | rfl | cases hfast
      rw [if_pos hany, Option.map_none]
  | some ids =>
      have hne : filter ≠ .any := by
        rintro rfl
        cases hfast
      rw [if_neg hne, Option.map_some, (filter.fastPath_findsExactly hindex hfast).shapesAt_eq]

theorem AttributeFilter.fastPath?_asList {m : Model} (hindex : m.index = .ofShapes m.shapes)
    (filter : AttributeFilter) : filter.fastPath? m.asList = filter.fastPath? m := by
  simp only [fastPath?, idsIn, Model.contains_asList, Model.shapesWithTrait_asList hindex]

theorem Pipeline.map_shapesAt_fastPath? {m : Model} (hindex : m.index = .ofShapes m.shapes)
    (pipeline : Pipeline) :
    (pipeline.fastPath? m.asList).map m.asList.shapesAt =
      ((pipeline.fastPath? m).map m.shapesAt).map (List.map Shape.asList) := by
  cases pipeline with
  | nil => rfl
  | cons stage rest =>
      change (stage.fastPath? m.asList).map _ = ((stage.fastPath? m).map _).map _
      cases stage with
      | type filter =>
          simp only [Stage.fastPath?, TypeFilter.map_shapesAt_fastPath? hindex,
            TypeFilter.map_shapesAt_fastPath? (m := m.asList) rfl, Model.entries_asList,
            List.filter_map, Function.comp_def, Shape.type_asList, TypeFilter.accepts_asList]
          split <;> rfl
      | «attribute» filter =>
          simp only [Stage.fastPath?, AttributeFilter.fastPath?_asList hindex, Option.map_map]
          congr 1
          funext ids
          exact m.shapesAt_asList ids
      | neighbor | function | capture | bind | get => rfl

def Match.asList (r : Match) : Match :=
  ⟨r.shape.asList, r.bindings⟩

namespace Search

variable {m : Model}

def relist (found : Sorted Match.id) : Sorted Match.id :=
  found.relabel Match.asList fun _ => rfl

theorem insert_relist (r : Match) (found : Sorted Match.id) :
    (relist found).insert r.asList = relist (found.insert r) :=
  Sorted.insert_relabel r found

theorem starts_asList (hindex : m.index = .ofShapes m.shapes) (optimize : Bool)
    (pipeline : Pipeline) :
    starts m.asList optimize .model pipeline =
      (starts m optimize .model pipeline).map Shape.asList := by
  have hfast := pipeline.map_shapesAt_fastPath? hindex
  cases optimize with
  | false => rfl
  | true =>
      simp only [starts]
      cases hold : pipeline.fastPath? m <;> cases hnew : pipeline.fastPath? m.asList <;>
        simp_all

theorem keep_asList (limit : Option Nat) (record : Bool) (bindings : Bindings) (shape : Shape)
    (found : Sorted Match.id) :
    keep limit record bindings shape.asList (relist found) =
      mapAnswer relist (keep limit record bindings shape found) := by
  have hcontains : (relist found).contains shape.id = found.contains shape.id :=
    Sorted.contains_relabel found shape.id
  have hinsert (bindings : Bindings) : (relist found).insert ⟨shape.asList, bindings⟩ =
      relist (found.insert ⟨shape, bindings⟩) := insert_relist ⟨shape, bindings⟩ found
  have hsize (found : Sorted Match.id) : (relist found).size = found.size :=
    Sorted.size_relabel found
  simp only [keep, Shape.id_asList, hcontains, hinsert]
  rw [← apply_ite relist]
  cases limit with
  | none => rfl
  | some n =>
      simp only [hsize]
      rw [apply_ite (mapAnswer relist)]
      rfl

theorem tryPipeline_asList (hindex : m.index = .ofShapes m.shapes) (optimize record : Bool)
    (limit : Option Nat) (pipeline : Pipeline) (found : Sorted Match.id) :
    tryPipeline m.asList optimize .model limit pipeline (relist found) record =
      mapAnswer relist (tryPipeline m optimize .model limit pipeline found record) := by
  rw [tryPipeline, tryPipeline, starts_asList hindex]
  apply feed_translate
  intro start _ found
  rw [pipeline.flow_delivers m.asList, pipeline.flow_delivers m, pipeline.respelt hindex]
  apply feed_translate
  intro o _ found
  exact keep_asList limit record o.bindings o.shape found

/-- A search with lists in place of the sets has the same matches, but for the spelling. -/
theorem run_asList (hindex : m.index = .ofShapes m.shapes) (config : SelectorConfig)
    (selector : Selector) (record : Bool) :
    run m.asList config selector .model record =
      (run m config selector .model record).map Match.asList := by
  unfold run
  split
  · rfl
  have hfeed : feed (fun pipeline found => tryPipeline m.asList config.optimize .model
        config.resultLimit pipeline found record) (selector.map id) (relist ∅) =
      mapAnswer relist (feed (fun pipeline found => tryPipeline m config.optimize .model
        config.resultLimit pipeline found record) selector ∅) := by
    apply feed_translate
    intro pipeline _ found
    exact tryPipeline_asList hindex config.optimize record config.resultLimit pipeline found
  rw [List.map_id] at hfeed
  have hvalue := congrArg (fun answer => answer.value.entries) hfeed
  rw [value_mapAnswer] at hvalue
  exact hvalue

end Search

namespace Model

variable {config : ModelConfig} {declarations : List Declaration} {m : Model}

/-- Declarations that are built to a model are so too with every set spelt as a list, and no search
tells the two models apart: the same ids match in the same order, with the same bindings. -/
theorem build_asList_indistinguishable (h : build config declarations = .ok m) :
    ∃ relisted, build config (declarations.map Declaration.asList) = .ok relisted ∧
      ∀ (selector : Selector) (sconfig : SelectorConfig),
        (selector.selectWith relisted sconfig).map Shape.id =
          (selector.selectWith m sconfig).map Shape.id ∧
        (selector.matchesWith relisted sconfig).map (fun r => (r.id, r.bindings)) =
          (selector.matchesWith m sconfig).map fun r => (r.id, r.bindings) := by
  refine ⟨m.asList, build_asList h, ?_⟩
  intro selector sconfig
  have hrun (record : Bool) := Search.run_asList (index_of_build h) sconfig selector record
  constructor
  · simp only [Selector.selectWith, hrun, List.map_map]
    rfl
  · simp only [Selector.matchesWith, hrun, List.map_map]
    rfl

def nestedSets : List Declaration :=
  [.string ⟨"a", "T", none⟩,
    (Declaration.set ⟨"a", "S", none⟩ ⟨"a", "T", none⟩).annotate .mixinMarker,
    (Declaration.set ⟨"a", "U", none⟩ ⟨"a", "T", none⟩).add (.mixin ⟨"a", "S", none⟩)]

theorem exists_build_nestedSets : ∃ m, build ⟨.error, false, false⟩ nestedSets = .ok m := by
  have hcollect : collect ∅ nestedSets = .ok (.ofList nestedSets) := by decide +kernel
  have horder : Declarations.resolutionOrder (.ofList nestedSets) =
      .ok [⟨"a", "T", none⟩, ⟨"a", "S", none⟩, ⟨"a", "U", none⟩] := by
    simp only [Declarations.resolutionOrder, DepthFirst.order_eq_workFor]
    decide +kernel
  have hbuilds : ((Declarations.resolveInOrder .error (.ofList nestedSets) []
      [⟨"a", "T", none⟩, ⟨"a", "S", none⟩, ⟨"a", "U", none⟩]).bind ofShapes).isOk = true := by
    decide +kernel
  obtain ⟨m, hm⟩ := exists_eq_ok_of_isOk hbuilds
  exact ⟨m, build_of_resolutionOrder hcollect horder hm rfl⟩

def collectionMembers : Selector :=
  [[.type (.exact (.aggregate .set)), .bind "c", .neighbor ⟨.forward, some [.member]⟩]]

theorem build_asList_indistinguishable_nestedSets :
    ∃ m relisted, build ⟨.error, false, false⟩ nestedSets = .ok m ∧
      build ⟨.error, false, false⟩ (nestedSets.map Declaration.asList) = .ok relisted ∧
      (collectionMembers.matchesWith relisted ⟨true, some 2⟩).map (fun r => (r.id, r.bindings)) =
        (collectionMembers.matchesWith m ⟨true, some 2⟩).map fun r => (r.id, r.bindings) := by
  obtain ⟨m, hbuild⟩ := exists_build_nestedSets
  obtain ⟨relisted, hrelisted, hsearch⟩ := build_asList_indistinguishable hbuild
  exact ⟨m, relisted, hbuild, hrelisted, (hsearch collectionMembers ⟨true, some 2⟩).2⟩

end Model

end SchemaQuery

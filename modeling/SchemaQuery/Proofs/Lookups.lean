import Mathlib.Data.List.Basic
import SchemaQuery.Proofs.RecursiveSteps
import SchemaQuery.Proofs.VariableScoping

namespace SchemaQuery

def Bindings.Within (bindings : Bindings) (m : Model) : Prop :=
  ∀ entry ∈ bindings.entries, ∀ id ∈ entry.2.entries, m.contains id = true

/-- The ids that a stage looks up in the model, if it does. -/
def Stage.lookups? (m : Model) (bindings : Bindings) (shape : Shape) :
    Stage → Option (List ShapeId)
  | .neighbor step => some (step.targets m shape.id)
  | .get name => some (bindings.shapesOf name).entries
  | .function .root args => some ((argumentFlow m args).collectFrom m.shapes.entries).entries
  | _ => none

/-- From a shape of the model and with bindings within it, only shapes of the model are yielded, and
with bindings within it. -/
def KeepsWithin (m : Model) (outcomes : Bindings → Shape → List Outcome) : Prop :=
  ∀ bindings, bindings.Within m → ∀ shape ∈ m.shapes.entries, ∀ o ∈ outcomes bindings shape,
    o.shape ∈ m.shapes.entries ∧ o.bindings.Within m

namespace Bindings

variable {m : Model} {bindings : Bindings}

theorem within_empty (m : Model) : (∅ : Bindings).Within m :=
  List.forall_mem_nil _

theorem Within.bind (h : bindings.Within m) (name : String) {shapes : IdSet}
    (hshapes : ∀ id ∈ shapes.entries, m.contains id = true) :
    (bindings.bind name shapes).Within m := by
  intro entry hentry
  rcases (Sorted.mem_insert).mp hentry with rfl | ⟨hentry, -⟩
  · exact hshapes
  · exact h entry hentry

theorem Within.contains (h : bindings.Within m) {name : String} {id : ShapeId}
    (hid : id ∈ (bindings.shapesOf name).entries) : m.contains id = true := by
  rw [shapesOf] at hid
  cases hfind : bindings.find? name with
  | none =>
      rw [hfind] at hid
      cases hid
  | some entry =>
      rw [hfind] at hid
      exact h entry (Sorted.find?_eq_some_iff.mp hfind).1 id hid

end Bindings

namespace KeepsWithin

variable {m : Model}

theorem contains {outcomes : Bindings → Shape → List Outcome} (h : KeepsWithin m outcomes)
    {bindings : Bindings} (hbindings : bindings.Within m) {shape : Shape}
    (hshape : shape ∈ m.shapes.entries) {id : ShapeId}
    (hid : id ∈ (outcomes bindings shape).map (·.shape.id)) : m.contains id = true := by
  obtain ⟨o, ho, rfl⟩ := List.mem_map.mp hid
  exact Model.contains_iff.mpr ⟨o.shape, (h bindings hbindings shape hshape o ho).1, rfl⟩

theorem pipeline {pipeline : Pipeline}
    (h : ∀ stage ∈ pipeline, KeepsWithin m (stage.outcomes m)) :
    KeepsWithin m fun bindings shape => pipelineOutcomes m bindings shape pipeline := by
  induction pipeline with
  | nil =>
      intro bindings hbindings shape hshape o ho
      rw [List.mem_singleton.mp ho]
      exact ⟨hshape, hbindings⟩
  | cons stage rest ih =>
      obtain ⟨hstage, hrest⟩ := List.forall_mem_cons.mp h
      intro bindings hbindings shape hshape o ho
      obtain ⟨middle, hmiddle, ho⟩ := List.mem_flatMap.mp ho
      obtain ⟨hnext, hbound⟩ := hstage bindings hbindings shape hshape middle hmiddle
      exact ih hrest middle.bindings hbound middle.shape hnext o ho

theorem selector {selector : Selector}
    (h : ∀ pipeline ∈ selector, ∀ stage ∈ pipeline, KeepsWithin m (stage.outcomes m)) :
    KeepsWithin m (selector.outcomes m) := by
  intro bindings hbindings shape hshape o ho
  rw [Selector.outcomes, selectorOutcomes_eq_flatMap] at ho
  obtain ⟨pipeline, hpipeline, ho⟩ := List.mem_flatMap.mp ho
  exact KeepsWithin.pipeline (h pipeline hpipeline) bindings hbindings shape hshape o ho

theorem arguments {args : List Selector}
    (h : ∀ selector ∈ args, ∀ pipeline ∈ selector, ∀ stage ∈ pipeline,
      KeepsWithin m (stage.outcomes m)) :
    KeepsWithin m fun bindings shape => argumentOutcomes m bindings shape args := by
  intro bindings hbindings shape hshape o ho
  change o ∈ argumentOutcomes m bindings shape args at ho
  rw [argumentOutcomes_eq_flatMap] at ho
  obtain ⟨selector, hselector, ho⟩ := List.mem_flatMap.mp ho
  exact KeepsWithin.selector (h selector hselector) bindings hbindings shape hshape o ho

end KeepsWithin

theorem Stage.keepsWithin (m : Model) (stage : Stage) : KeepsWithin m (stage.outcomes m) := by
  induction stage using Stage.inductionOn with
  | type | «attribute» | neighbor | get =>
      intro bindings hbindings shape hshape o ho
      simp only [outcomes] at ho
      grind [Model.mem_shapesAt]
  | bind name =>
      intro bindings hbindings shape hshape o ho
      cases List.mem_singleton.mp ho
      refine ⟨hshape, hbindings.bind name ?_⟩
      intro id hid
      rw [SortedSet.mem_ofList, List.mem_singleton] at hid
      exact Model.contains_iff.mpr ⟨shape, hshape, hid.symm⟩
  | capture name selector ih =>
      intro bindings hbindings shape hshape o ho
      cases List.mem_singleton.mp ho
      refine ⟨hshape, hbindings.bind name ?_⟩
      intro id hid
      rw [SortedSet.mem_ofList] at hid
      exact (KeepsWithin.selector ih).contains hbindings hshape hid
  | function kind args ih =>
      cases kind with
      | is => exact KeepsWithin.arguments ih
      | not | test | «in» | root =>
          intro bindings hbindings shape hshape o ho
          simp only [outcomes] at ho
          grind

theorem Visits.within {m : Model} {bindings found : Bindings} {shape next : Shape}
    {pipeline : Pipeline} {visited : Stage}
    (h : Visits m bindings shape pipeline visited found next)
    (hbindings : bindings.Within m) (hshape : shape ∈ m.shapes.entries) :
    next ∈ m.shapes.entries ∧ found.Within m := by
  induction h with
  | here => exact ⟨hshape, hbindings⟩
  | @later _ _ _ _ stage _ _ o ho _ ih =>
      rw [(stage.flow_delivers m).handed_eq] at ho
      obtain ⟨hnext, hbound⟩ := stage.keepsWithin m _ hbindings _ hshape o ho
      exact ih hbound hnext
  | argument _ _ _ _ ih => exact ih hbindings hshape
  | root hstart _ _ _ ih => exact ih (Bindings.within_empty m) hstart
  | captured _ _ ih => exact ih hbindings hshape

namespace NeighborStep

variable {m : Model}

theorem contains_of_mem_targets (hindex : m.index = .ofShapes m.shapes) {step : NeighborStep}
    {source id : ShapeId} (h : id ∈ step.targets m source) : m.contains id = true := by
  obtain ⟨direction, labels⟩ := step
  cases direction with
  | forward =>
      have hforward : (⟨.forward, labels⟩ : NeighborStep).direction ≠ .reverse := by simp
      exact ((mem_adjacent_iff hindex hforward).mp h).contains
  | reverse =>
      rw [targets, adjacent, List.mem_eraseDups, List.mem_map] at h
      obtain ⟨r, hr, rfl⟩ := h
      have hedge := List.mem_of_mem_filter hr
      rw [Model.reverseNeighbors_eq_filter hindex] at hedge
      exact (Index.contains_of_mem_edges (List.mem_of_mem_filter hedge)).1
  | recursive =>
      have hreached := (takes_targets rfl source).reached id h
      rw [edge_adjacent hindex (by simp)] at hreached
      exact contains_of_transGen hreached

end NeighborStep

namespace Stage

variable {m : Model} {bindings : Bindings} {shape : Shape}

theorem contains_of_mem_lookups (hindex : m.index = .ofShapes m.shapes)
    (hbindings : bindings.Within m) {stage : Stage} {ids : List ShapeId}
    (h : stage.lookups? m bindings shape = some ids) : ∀ id ∈ ids, m.contains id = true := by
  intro id hid
  unfold lookups? at h
  split at h
  · cases h
    exact NeighborStep.contains_of_mem_targets hindex hid
  · cases h
    exact hbindings.contains hid
  · next args =>
    cases h
    have hdelivers : (argumentFlow m args).Delivers fun bindings shape =>
        argumentOutcomes m bindings shape args :=
      argumentFlow_delivers fun _ _ _ _ stage _ => stage.flow_delivers m
    have hkeeps : KeepsWithin m fun bindings shape => argumentOutcomes m bindings shape args :=
      KeepsWithin.arguments fun _ _ _ _ stage _ => stage.keepsWithin m
    rw [hdelivers.collectFrom_eq, SortedSet.mem_ofList, List.map_flatMap, List.mem_flatMap] at hid
    obtain ⟨start, hstart, hid⟩ := hid
    exact hkeeps.contains (Bindings.within_empty m) hstart hid
  · cases h

theorem handed_eq_of_lookups? {stage : Stage} {ids : List ShapeId}
    (h : stage.lookups? m bindings shape = some ids) :
    (stage.flow m).handed bindings shape = (m.shapesAt ids).map fun found => ⟨bindings, found⟩ := by
  unfold lookups? at h
  split at h <;> cases h <;> exact (Flow.Delivers.expand _).handed_eq bindings shape

end Stage

/-- From a shape of a built model, and with whatever bound that is in the model, only shapes of the
model are handed on, and only such are bound. Wherever evaluation comes to a stage that looks ids up
it finds all of them, and hands them all on. -/
theorem Selector.lookups_found {config : ModelConfig} {declarations : List Declaration} {m : Model}
    (hbuild : Model.build config declarations = .ok m) (selector : Selector) {bindings : Bindings}
    (hbindings : bindings.Within m) {shape : Shape} (hshape : shape ∈ m.shapes.entries) :
    (∀ o ∈ (selector.flow m).handed bindings shape,
      o.shape ∈ m.shapes.entries ∧ o.bindings.Within m) ∧
    ∀ pipeline ∈ selector, ∀ visited found next,
      SchemaQuery.Visits m bindings shape pipeline visited found next →
        next ∈ m.shapes.entries ∧ found.Within m ∧
        (∀ o ∈ (visited.flow m).handed found next,
          o.shape ∈ m.shapes.entries ∧ o.bindings.Within m) ∧
        ∀ ids, visited.lookups? m found next = some ids →
          (∀ id ∈ ids, (m.find? id).isSome = true) ∧
          ((visited.flow m).handed found next).map (·.shape.id) = ids := by
  have hindex := Model.index_of_build hbuild
  constructor
  · intro o ho
    rw [(selector.flow_delivers m).handed_eq] at ho
    have hkeeps : KeepsWithin m (selector.outcomes m) :=
      KeepsWithin.selector fun _ _ stage _ => stage.keepsWithin m
    exact hkeeps bindings hbindings shape hshape o ho
  · intro pipeline _ visited found next hvisits
    obtain ⟨hnext, hfound⟩ := hvisits.within hbindings hshape
    refine ⟨hnext, hfound, ?_, ?_⟩
    · intro o ho
      rw [(visited.flow_delivers m).handed_eq] at ho
      exact visited.keepsWithin m found hfound next hnext o ho
    · intro ids hids
      have hcontains := Stage.contains_of_mem_lookups hindex hfound hids
      constructor
      · intro id hid
        rw [Model.find?, ← Sorted.contains_eq_isSome_find?]
        exact hcontains id hid
      · rw [Stage.handed_eq_of_lookups? hids, List.map_map]
        exact (Model.map_id_shapesAt ids).trans (List.filter_eq_self.mpr hcontains)

def Selector.pastGap : Selector :=
  [[.capture "v" [[.neighbor ⟨.recursive, none⟩]],
    .function .test [[[.get "x", .function .root [[[.neighbor ⟨.forward, none⟩]]]]]], .get "v"]]

def Bindings.ofText : Bindings :=
  (∅ : Bindings).bind "x" (.ofList [⟨"a", "T", none⟩])

/-- The operation that the resource refers to is missing, and is looked up nowhere. -/
theorem Selector.lookups_found_pastGap :
    ∃ m shape, Model.build ⟨.error, false, false⟩ twiceIdentified = .ok m ∧
      m.find? ⟨"a", "R", none⟩ = some shape ∧ shape ∈ m.shapes.entries ∧
      Bindings.ofText.Within m ∧
      (pastGap.flow m).handed .ofText shape ≠ [] ∧
      (∀ o ∈ (pastGap.flow m).handed .ofText shape,
        o.shape ∈ m.shapes.entries ∧ o.bindings.Within m) ∧
      ∀ ids, (Stage.neighbor ⟨.recursive, none⟩).lookups? m .ofText shape = some ids →
        ∀ id ∈ ids, (m.find? id).isSome = true := by
  have hevaluated : (Model.build ⟨.error, false, false⟩ twiceIdentified).map (fun m =>
      ((m.find? ⟨"a", "R", none⟩).map fun shape =>
          ((pastGap.flow m).handed .ofText shape).map (·.shape.id),
        m.contains ⟨"a", "T", none⟩)) = .ok (some [⟨"a", "T", none⟩], true) := by
    simp only [Model.build, Declarations.resolveAll, Declarations.resolutionOrder,
      DepthFirst.order_eq_workFor, flow, pastGap, selectorFlow, pipelineFlow, Stage.flow,
      NeighborStep.targets, BreadthFirst.reach_eq_workFor]
    decide +kernel
  obtain ⟨m, hbuild, hevaluated⟩ := map_eq_ok_iff.mp hevaluated
  obtain ⟨hhanded, htext⟩ := Prod.mk.inj hevaluated
  obtain ⟨shape, hfind, hhanded⟩ := Option.map_eq_some_iff.mp hhanded
  have hshape : shape ∈ m.shapes.entries := (Model.find?_eq_some_iff.mp hfind).1
  have hwithin : Bindings.ofText.Within m := by
    refine (Bindings.within_empty m).bind "x" ?_
    intro id hid
    rw [SortedSet.mem_ofList, List.mem_singleton] at hid
    rwa [hid]
  obtain ⟨hkeeps, hvisits⟩ := lookups_found hbuild pastGap hwithin hshape
  obtain ⟨-, -, -, hlookups⟩ := hvisits _ List.mem_cons_self (.neighbor ⟨.recursive, none⟩) .ofText
    shape (.captured List.mem_cons_self .here)
  refine ⟨m, shape, hbuild, hfind, hshape, hwithin, ?_, hkeeps,
    fun ids hids => (hlookups ids hids).1⟩
  intro hnil
  rw [hnil] at hhanded
  cases hhanded

end SchemaQuery

import Mathlib.Logic.Relation
import SchemaQuery.Proofs.BreadthFirst
import SchemaQuery.Proofs.Neighbors

namespace SchemaQuery

open BreadthFirst Relation

namespace NeighborStep

/-- A relationship that is followed leads from one shape of the model to another. -/
def Links (step : NeighborStep) (m : Model) (a b : ShapeId) : Prop :=
  ∃ r ∈ Index.edges m.shapes, step.follows r.type = true ∧ r.source = a ∧ r.neighbor = b

variable {m : Model} {step : NeighborStep}

theorem adjacent_eq (hstep : step.direction ≠ .reverse) (id : ShapeId) :
    step.adjacent m id =
      (((m.neighbors id).filter fun r => step.follows r.type).map
        Relationship.neighbor).eraseDups := by
  unfold adjacent
  split
  · next hreverse => exact absurd hreverse hstep
  · rfl

theorem mem_adjacent_iff (hindex : m.index = .ofShapes m.shapes)
    (hstep : step.direction ≠ .reverse) {a b : ShapeId} :
    b ∈ step.adjacent m a ↔ step.Links m a b := by
  rw [adjacent_eq hstep, List.mem_eraseDups, List.mem_map, Model.neighbors, hindex,
    Index.outgoing_ofShapes]
  simp only [List.mem_filter, decide_eq_true_eq]
  constructor
  · rintro ⟨r, ⟨⟨hr, hsource⟩, hfollows⟩, hneighbor⟩
    exact ⟨r, hr, hfollows, hsource, hneighbor⟩
  · rintro ⟨r, hr, hfollows, hsource, hneighbor⟩
    exact ⟨r, ⟨⟨hr, hsource⟩, hfollows⟩, hneighbor⟩

theorem edge_adjacent (hindex : m.index = .ofShapes m.shapes)
    (hstep : step.direction ≠ .reverse) : Edge (step.adjacent m) = step.Links m := by
  funext a b
  exact propext (mem_adjacent_iff hindex hstep)

theorem adjacent_eq_nil (hstep : step.direction ≠ .reverse) {id : ShapeId}
    (h : id ∉ m.index.outgoing.keys) : step.adjacent m id = [] := by
  rw [adjacent_eq hstep, Model.neighbors, Grouping.get_eq_nil_of_not_mem h]
  rfl

theorem Links.contains {a b : ShapeId} (h : step.Links m a b) : m.contains b = true := by
  obtain ⟨r, hr, -, -, rfl⟩ := h
  exact (Index.contains_of_mem_edges hr).2

theorem contains_of_transGen {a b : ShapeId} (h : TransGen (step.Links m) a b) :
    m.contains b = true := by
  obtain ⟨c, -, hlinks⟩ := TransGen.tail'_iff.mp h
  exact hlinks.contains

theorem targets_eq_reach (hstep : step.direction = .recursive) (id : ShapeId) :
    step.targets m id = reach m.index.outgoing.keys (step.adjacent m) id := by
  simp only [targets, hstep]

theorem takes_targets (hstep : step.direction = .recursive) (id : ShapeId) :
    Takes (step.adjacent m) id 1 [] (step.targets m id) := by
  rw [targets_eq_reach hstep]
  exact takes_reach (fun _ => adjacent_eq_nil (by simp [hstep])) id

theorem handsOn_eq_targets (hindex : m.index = .ofShapes m.shapes)
    (hstep : step.direction = .recursive) (bindings : Bindings) (shape : Shape) :
    step.handsOn m bindings shape = step.targets m shape.id := by
  rw [handsOn_eq, List.filter_eq_self]
  intro id hid
  have hreached := (takes_targets hstep shape.id).reached id hid
  rw [edge_adjacent hindex (by simp [hstep])] at hreached
  exact contains_of_transGen hreached

/-- From a shape of a built model, the loop of a recursive step ends. It hands on, with what was
bound before, exactly the shapes to which one or more followed relationships lead, each once and in
the order of their distance. The start is among them exactly if it lies on a cycle. -/
theorem handsOn_recursive {config : ModelConfig} {declarations : List Declaration}
    (hbuild : Model.build config declarations = .ok m) (hstep : step.direction = .recursive)
    (bindings : Bindings) (start : Shape) :
    Run (step.adjacent m) (step.adjacent m start.id) [] (step.handsOn m bindings start) ∧
    (∀ o ∈ ((Stage.neighbor step).flow m).handed bindings start,
      o.bindings = bindings ∧ o.shape ∈ m.shapes.entries) ∧
    (∀ id, id ∈ step.handsOn m bindings start ↔ TransGen (step.Links m) start.id id) ∧
    (step.handsOn m bindings start).Nodup ∧
    (step.handsOn m bindings start).Pairwise (fun a b =>
      distance (step.Links m) start.id a ≤ distance (step.Links m) start.id b) ∧
    (start.id ∈ step.handsOn m bindings start ↔
      ∃ n, 0 < n ∧ Walk (step.Links m) start.id n start.id) := by
  have hindex := Model.index_of_build hbuild
  have hforward : step.direction ≠ .reverse := by simp [hstep]
  have htakes := takes_targets (m := m) hstep start.id
  have hedge : Edge (step.adjacent m) = step.Links m := edge_adjacent hindex hforward
  have hmem (id : ShapeId) :
      id ∈ step.targets m start.id ↔ TransGen (step.Links m) start.id id := by
    rw [← hedge, targets_eq_reach hstep]
    exact mem_reach_iff fun _ => adjacent_eq_nil hforward
  rw [handsOn_eq_targets hindex hstep]
  refine ⟨?_, ?_, hmem, htakes.nodup, ?_, ?_⟩
  · rw [targets_eq_reach hstep]
    exact run_reach (fun _ => adjacent_eq_nil hforward) start.id
  · intro o ho
    rw [((Stage.neighbor step).flow_delivers m).handed_eq] at ho
    obtain ⟨found, hfound, rfl⟩ := List.mem_map.mp ho
    exact ⟨rfl, (Model.mem_shapesAt.mp hfound).1⟩
  · rw [← hedge]
    exact htakes.ordered
  · rw [hmem]
    exact transGen_iff_exists_walk

def selfHolding : List Declaration :=
  [((Declaration.structure ⟨"a", "S", none⟩).withMember "m" ⟨"a", "S", none⟩).withMember "t"
      ⟨"a", "T", none⟩,
    .string ⟨"a", "T", none⟩]

theorem handsOn_recursive_selfHolding :
    ∃ m start, Model.build ⟨.error, false, false⟩ selfHolding = .ok m ∧
      m.find? ⟨"a", "S", none⟩ = some start ∧
      handsOn ⟨.recursive, none⟩ m ∅ start =
        [⟨"a", "S", some "m"⟩, ⟨"a", "S", some "t"⟩, ⟨"a", "S", none⟩, ⟨"a", "T", none⟩] ∧
      Run (adjacent ⟨.recursive, none⟩ m) (adjacent ⟨.recursive, none⟩ m start.id) []
        (handsOn ⟨.recursive, none⟩ m ∅ start) ∧
      TransGen (Links ⟨.recursive, none⟩ m) start.id ⟨"a", "T", none⟩ ∧
      ∃ n, 0 < n ∧ Walk (Links ⟨.recursive, none⟩ m) start.id n start.id := by
  have hfound : (Model.build ⟨.error, false, false⟩ selfHolding).map (fun m =>
      (m.find? ⟨"a", "S", none⟩).map fun start => handsOn ⟨.recursive, none⟩ m ∅ start) =
        .ok (some [⟨"a", "S", some "m"⟩, ⟨"a", "S", some "t"⟩, ⟨"a", "S", none⟩,
          ⟨"a", "T", none⟩]) := by
    simp only [Model.build, Declarations.resolveAll, Declarations.resolutionOrder,
      DepthFirst.order_eq_workFor, handsOn, Stage.flow, targets, reach_eq_workFor]
    decide +kernel
  obtain ⟨m, hbuild, hfound⟩ := map_eq_ok_iff.mp hfound
  obtain ⟨start, hstart, hfound⟩ := Option.map_eq_some_iff.mp hfound
  have hid : start.id = ⟨"a", "S", none⟩ := (Model.find?_eq_some_iff.mp hstart).2
  have hstep : (⟨.recursive, none⟩ : NeighborStep).direction = .recursive := rfl
  obtain ⟨hrun, -, hmem, -, -, hcycle⟩ := handsOn_recursive hbuild hstep ∅ start
  refine ⟨m, start, hbuild, hstart, hfound, hrun, (hmem _).mp ?_, hcycle.mp ?_⟩
  · rw [hfound]
    decide
  · rw [hfound, hid]
    decide

end NeighborStep

end SchemaQuery

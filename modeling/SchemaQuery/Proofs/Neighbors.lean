import Mathlib.Data.List.Nodup
import SchemaQuery.Proofs.BuiltModel
import SchemaQuery.Proofs.DepthFirst
import SchemaQuery.Proofs.FirstOccurrences
import SchemaQuery.Proofs.Indexes
import SchemaQuery.Proofs.Outcomes

namespace SchemaQuery

def Shape.referred (shape : Shape) : RelationshipType → List ShapeId
  | .member => shape.members.map Member.id
  | .memberTarget => shape.target?.toList
  | .identifier => shape.asResource?.elim [] fun r => r.identifiers.targets
  | .property => shape.asResource?.elim [] fun r => r.properties.targets
  | .resource =>
    shape.asResource?.elim [] Resource.resources ++ shape.asService?.elim [] Service.resources
  | .operation =>
    shape.asResource?.elim [] Resource.operations ++ shape.asService?.elim [] Service.operations
  | .collectionOperation => shape.asResource?.elim [] Resource.collectionOperations
  | .create => (shape.asResource?.bind Resource.create).toList
  | .put => (shape.asResource?.bind Resource.put).toList
  | .read => (shape.asResource?.bind Resource.read).toList
  | .update => (shape.asResource?.bind Resource.update).toList
  | .delete => (shape.asResource?.bind Resource.delete).toList
  | .list => (shape.asResource?.bind Resource.list).toList
  | .input => (shape.asOperation?.bind Operation.input).toList
  | .output => (shape.asOperation?.bind Operation.output).toList
  | .error =>
    shape.asOperation?.elim [] Operation.errors ++ shape.asService?.elim [] Service.errors
  | .mixin => shape.mixins
  | .trait => shape.traits.ids

namespace Shape

theorem referencesOfType_map (type expected : RelationshipType) (ids : List ShapeId) :
    ((ids.map (type, ·)).filter fun p => p.1 = expected).map Prod.snd =
      if type = expected then ids else [] := by
  rw [List.filter_map, List.map_map]
  split
  · next h =>
    rw [List.filter_eq_self.mpr fun id _ => by simp [h]]
    exact List.map_id ids
  · next h =>
    rw [List.filter_eq_nil_iff.mpr fun id _ => by simp [h]]
    rfl

theorem referencesOfType_eq (shape : Shape) (type : RelationshipType) :
    (shape.references.filter fun p => p.1 = type).map Prod.snd = shape.referred type := by
  obtain ⟨id, content, traits, mixins⟩ := shape
  have hmembers (members : List Member) :
      members.map (fun m => (RelationshipType.member, m.id)) =
        (members.map Member.id).map (.member, ·) := by
    rw [List.map_map]
    rfl
  cases content <;>
    simp only [references, contentReferences, resourceReferences, hmembers, List.filter_append,
      List.map_append, referencesOfType_map] <;>
    cases type <;>
    simp [referred, members, target?, asMember?, asResource?, asOperation?, asService?]

theorem source_eq {shape : Shape} {r : Relationship} (h : r ∈ shape.relationships) :
    r.source = shape.id := by
  obtain ⟨p, -, rfl⟩ := List.mem_map.mp h
  rfl

end Shape

namespace Index

variable {shapes : Sorted Shape.id}

theorem outgoing_ofShapes (id : ShapeId) :
    (ofShapes shapes).outgoing.get id = (edges shapes).filter fun r => r.source = id := by
  simp only [ofShapes, Grouping.get_ofPairs, List.filter_map, List.map_map]
  exact List.map_id _

theorem incoming_ofShapes (id : ShapeId) :
    (ofShapes shapes).incoming.get id = (edges shapes).filter fun r => r.neighbor = id := by
  simp only [ofShapes, Grouping.get_ofPairs, List.filter_map, List.map_map]
  exact List.map_id _

theorem filter_source_edges (id : ShapeId) :
    (edges shapes).filter (fun r => r.source = id) =
      (shapes.find? id).toList.flatMap fun shape =>
        shape.relationships.filter fun r => shapes.contains r.neighbor := by
  rw [← Sorted.filter_key_eq, edges, List.filter_flatMap]
  induction shapes.entries with
  | nil => rfl
  | cons shape rest ih =>
      have hshape : ((shape.relationships.filter fun r => shapes.contains r.neighbor).filter
          fun r => r.source = id) = if shape.id = id then
            shape.relationships.filter fun r => shapes.contains r.neighbor else [] := by
        split
        · next h =>
          rw [List.filter_eq_self]
          intro r hr
          rw [decide_eq_true_eq, Shape.source_eq (List.mem_of_mem_filter hr), h]
        · next h =>
          rw [List.filter_eq_nil_iff]
          intro r hr
          rwa [decide_eq_true_eq, Shape.source_eq (List.mem_of_mem_filter hr)]
      rw [List.flatMap_cons, ih, hshape, List.filter_cons]
      simp only [decide_eq_true_eq]
      split <;> rfl

theorem contains_of_mem_edges {r : Relationship} (h : r ∈ edges shapes) :
    shapes.contains r.source = true ∧ shapes.contains r.neighbor = true := by
  obtain ⟨shape, hshape, hr⟩ := List.mem_flatMap.mp h
  obtain ⟨hr, hneighbor⟩ := List.mem_filter.mp hr
  exact ⟨Sorted.contains_iff.mpr ⟨shape, hshape, (Shape.source_eq hr).symm⟩, hneighbor⟩

end Index

/-- The ids of the shapes that a step hands on from a shape. -/
def NeighborStep.handsOn (step : NeighborStep) (m : Model) (bindings : Bindings) (shape : Shape) :
    List ShapeId :=
  (((Stage.neighbor step).flow m).handed bindings shape).map (·.shape.id)

namespace Model

variable {m : Model}

theorem neighbors_eq_flatMap (hindex : m.index = .ofShapes m.shapes) (id : ShapeId) :
    m.neighbors id = (m.find? id).toList.flatMap fun shape =>
      shape.relationships.filter fun r => m.contains r.neighbor := by
  rw [neighbors, hindex, Index.outgoing_ofShapes, Index.filter_source_edges]
  rfl

theorem neighbors_eq_filter (hindex : m.index = .ofShapes m.shapes) {shape : Shape}
    (hshape : shape ∈ m.shapes.entries) :
    m.neighbors shape.id = shape.relationships.filter fun r => m.contains r.neighbor := by
  have hfind : m.find? shape.id = some shape := find?_eq_some_iff.mpr ⟨hshape, rfl⟩
  rw [neighbors_eq_flatMap hindex, hfind, Option.toList_some, List.flatMap_singleton]

theorem edges_eq_flatMap (hindex : m.index = .ofShapes m.shapes) :
    Index.edges m.shapes = m.ids.flatMap m.neighbors := by
  rw [Index.edges, ids, Sorted.keys, List.flatMap_map]
  exact List.flatMap_congr fun shape hshape => (neighbors_eq_filter hindex hshape).symm

theorem reverseNeighbors_eq_filter (hindex : m.index = .ofShapes m.shapes) (id : ShapeId) :
    m.reverseNeighbors id = (Index.edges m.shapes).filter fun r => r.neighbor = id := by
  rw [reverseNeighbors, hindex, Index.incoming_ofShapes]

end Model

namespace NeighborStep

variable {m : Model}

theorem handsOn_eq (step : NeighborStep) (bindings : Bindings) (shape : Shape) :
    step.handsOn m bindings shape = (step.targets m shape.id).filter m.contains := by
  rw [handsOn, ((Stage.neighbor step).flow_delivers m).handed_eq, ← Model.map_id_shapesAt]
  simp only [Stage.outcomes, List.map_map]
  rfl

theorem mem_handsOn_forward (hindex : m.index = .ofShapes m.shapes)
    {labels : Option (List RelationshipType)} {bindings : Bindings} {shape : Shape} {id : ShapeId} :
    id ∈ handsOn ⟨.forward, labels⟩ m bindings shape ↔
      ∃ r ∈ Index.edges m.shapes, follows ⟨.forward, labels⟩ r.type = true ∧
        r.source = shape.id ∧ r.neighbor = id := by
  rw [handsOn_eq, List.mem_filter, targets, adjacent, List.mem_eraseDups, List.mem_map,
    Model.neighbors, hindex, Index.outgoing_ofShapes]
  simp only [List.mem_filter, decide_eq_true_eq]
  constructor
  · rintro ⟨⟨r, ⟨⟨hr, hsource⟩, hfollows⟩, hneighbor⟩, -⟩
    exact ⟨r, hr, hfollows, hsource, hneighbor⟩
  · rintro ⟨r, hr, hfollows, hsource, rfl⟩
    exact ⟨⟨r, ⟨⟨hr, hsource⟩, hfollows⟩, rfl⟩, (Index.contains_of_mem_edges hr).2⟩

theorem mem_handsOn_reverse (hindex : m.index = .ofShapes m.shapes)
    {labels : Option (List RelationshipType)} {bindings : Bindings} {shape : Shape} {id : ShapeId} :
    id ∈ handsOn ⟨.reverse, labels⟩ m bindings shape ↔
      ∃ r ∈ Index.edges m.shapes, follows ⟨.reverse, labels⟩ r.type = true ∧
        r.source = id ∧ r.neighbor = shape.id := by
  rw [handsOn_eq, List.mem_filter, targets, adjacent, List.mem_eraseDups, List.mem_map,
    Model.reverseNeighbors_eq_filter hindex]
  simp only [List.mem_filter, decide_eq_true_eq]
  constructor
  · rintro ⟨⟨r, ⟨⟨hr, hneighbor⟩, hfollows⟩, hsource⟩, -⟩
    exact ⟨r, hr, hfollows, hsource, hneighbor⟩
  · rintro ⟨r, hr, hfollows, rfl, hneighbor⟩
    exact ⟨⟨r, ⟨⟨hr, hneighbor⟩, hfollows⟩, rfl⟩, (Index.contains_of_mem_edges hr).1⟩

theorem nodup_handsOn {direction : Direction} (h : direction ≠ .recursive)
    (labels : Option (List RelationshipType)) (bindings : Bindings) (shape : Shape) :
    (handsOn ⟨direction, labels⟩ m bindings shape).Nodup := by
  rw [handsOn_eq]
  refine List.Nodup.filter _ ?_
  cases direction with
  | forward | reverse => exact nodup_eraseDups _
  | recursive => exact absurd rfl h

end NeighborStep

/-- From each shape the edges of a built model lead, in order, to all that it refers to within the
model, and to nothing else. The edges to a shape are, by source in id order, the same edges. So
single steps in both directions undo each other, whatever their labels, and hand each shape on
once. -/
theorem Model.neighbors_mirrored {config : ModelConfig} {declarations : List Declaration}
    {m : Model} (hbuild : build config declarations = .ok m) :
    (∀ shape ∈ m.shapes.entries,
      m.neighbors shape.id = shape.relationships.filter fun r => m.contains r.neighbor) ∧
    (∀ shape ∈ m.shapes.entries, ∀ type,
      ((m.neighbors shape.id).filter fun r => r.type = type).map Relationship.neighbor =
        (shape.referred type).filter m.contains) ∧
    (∀ id, m.reverseNeighbors id =
      m.ids.flatMap fun source => (m.neighbors source).filter fun r => r.neighbor = id) ∧
    (∀ r, (m.neighbors r.source).count r = (m.reverseNeighbors r.neighbor).count r) ∧
    (∀ id, m.contains id = false → m.neighbors id = [] ∧ m.reverseNeighbors id = []) ∧
    ∀ labels bindings x y,
      (y.id ∈ NeighborStep.handsOn ⟨.forward, labels⟩ m bindings x ↔
        x.id ∈ NeighborStep.handsOn ⟨.reverse, labels⟩ m bindings y) ∧
      (NeighborStep.handsOn ⟨.forward, labels⟩ m bindings x).Nodup ∧
      (NeighborStep.handsOn ⟨.reverse, labels⟩ m bindings y).Nodup := by
  have hindex := index_of_build hbuild
  refine ⟨fun shape hshape => neighbors_eq_filter hindex hshape, ?_, ?_, ?_, ?_, ?_⟩
  · intro shape hshape type
    rw [neighbors_eq_filter hindex hshape, ← shape.referencesOfType_eq, Shape.relationships]
    simp only [List.filter_map, List.map_map, List.filter_filter, Function.comp_def, Bool.and_comm]
  · intro id
    rw [reverseNeighbors_eq_filter hindex, edges_eq_flatMap hindex, List.filter_flatMap]
  · intro r
    rw [reverseNeighbors_eq_filter hindex, neighbors, hindex, Index.outgoing_ofShapes,
      List.count_filter (by simp), List.count_filter (by simp)]
  · intro id hid
    constructor
    · have hnone : m.find? id = none := by
        rwa [contains, Sorted.contains_eq_isSome_find?, Option.isSome_eq_false_iff,
          Option.isNone_iff_eq_none] at hid
      rw [neighbors_eq_flatMap hindex, hnone, Option.toList_none, List.flatMap_nil]
    · rw [reverseNeighbors_eq_filter hindex, List.filter_eq_nil_iff]
      intro r hr
      rw [decide_eq_true_eq]
      rintro rfl
      exact absurd (Index.contains_of_mem_edges hr).2 (Bool.eq_false_iff.mp hid)
  · intro labels bindings x y
    refine ⟨?_, NeighborStep.nodup_handsOn (by decide) labels bindings x,
      NeighborStep.nodup_handsOn (by decide) labels bindings y⟩
    rw [NeighborStep.mem_handsOn_forward hindex, NeighborStep.mem_handsOn_reverse hindex]
    rfl

def twiceIdentified : List Declaration :=
  [.string ⟨"a", "T", none⟩,
    (((Declaration.resource ⟨"a", "R", none⟩).add (.identifier "x" ⟨"a", "T", none⟩)).add
      (.identifier "y" ⟨"a", "T", none⟩)).add (.lifecycle .read ⟨"a", "Gone", none⟩)]

theorem Model.neighbors_mirrored_twiceIdentified :
    ∃ m, build ⟨.error, false, false⟩ twiceIdentified = .ok m ∧
      (m.neighbors ⟨"a", "R", none⟩ = List.replicate 2
        ⟨⟨"a", "R", none⟩, .identifier, ⟨"a", "T", none⟩⟩) ∧
      (m.reverseNeighbors ⟨"a", "T", none⟩ =
        m.ids.flatMap fun source =>
          (m.neighbors source).filter fun r => r.neighbor = ⟨"a", "T", none⟩) ∧
      ((m.neighbors ⟨"a", "R", none⟩).count
          ⟨⟨"a", "R", none⟩, .identifier, ⟨"a", "T", none⟩⟩ =
        (m.reverseNeighbors ⟨"a", "T", none⟩).count
          ⟨⟨"a", "R", none⟩, .identifier, ⟨"a", "T", none⟩⟩) ∧
      ∀ x y : Shape, (y.id ∈ NeighborStep.handsOn ⟨.forward, some [.identifier]⟩ m ∅ x ↔
        x.id ∈ NeighborStep.handsOn ⟨.reverse, some [.identifier]⟩ m ∅ y) := by
  have hfound : (build ⟨.error, false, false⟩ twiceIdentified).map
      (fun m => m.neighbors ⟨"a", "R", none⟩) = .ok (List.replicate 2
        ⟨⟨"a", "R", none⟩, .identifier, ⟨"a", "T", none⟩⟩) := by
    simp only [build, Declarations.resolveAll, Declarations.resolutionOrder,
      DepthFirst.order_eq_workFor]
    decide +kernel
  obtain ⟨m, hbuild, hfound⟩ := map_eq_ok_iff.mp hfound
  obtain ⟨-, -, hreverse, hcount, -, hsteps⟩ := neighbors_mirrored hbuild
  exact ⟨m, hbuild, hfound, hreverse _, hcount ⟨_, .identifier, _⟩,
    fun x y => (hsteps _ ∅ x y).1⟩

end SchemaQuery

import Mathlib.Algebra.GroupWithZero.Nat
import Mathlib.Data.List.Nodup
import Mathlib.Logic.ExistsUnique
import SchemaQuery.Proofs.FastPath

namespace SchemaQuery.Model

open Std

variable {m : Model}

/-- The shapes of a model that pass a test, and their ids: each once, in id order. -/
structure Scans (m : Model) (test : Shape → Prop) (ids : List ShapeId) (shapes : List Shape) :
    Prop where
  map_id : shapes.map Shape.id = ids
  ordered : ids.Pairwise fun a b => compare a b = .lt
  mem_iff : ∀ shape, shape ∈ shapes ↔ m.find? shape.id = some shape ∧ test shape

theorem scans_shapesAt (m : Model) (test : Shape → Bool) {ids : List ShapeId}
    (h : ids = (m.shapes.entries.filter test).map Shape.id) :
    m.Scans (fun shape => test shape = true) ids (m.shapesAt ids) where
  map_id := by
    rw [map_id_shapesAt, List.filter_eq_self]
    intro id hid
    rw [h] at hid
    exact contains_of_mem_map_filter hid
  ordered := by
    rw [h]
    exact (m.findsExactly_map_filter test).ordered
  mem_iff := by
    intro shape
    rw [mem_shapesAt, find?_eq_some_iff, and_iff_left rfl]
    refine and_congr_right ?_
    intro hshape
    rw [h, id_mem_map_filter hshape]

theorem scans_shapesOfType (hindex : m.index = .ofShapes m.shapes) (type : ShapeType) :
    m.Scans (fun shape => shape.type = type) (m.index.shapesOfType type) (m.shapesOfType type) := by
  have hids : m.index.shapesOfType type =
      (m.shapes.entries.filter fun shape => shape.type = type).map Shape.id := by
    rw [hindex, Index.shapesOfType_ofShapes]
  simpa only [shapesOfType, decide_eq_true_eq] using m.scans_shapesAt _ hids

theorem scans_shapesWithTrait (hindex : m.index = .ofShapes m.shapes) (trait : ShapeId) :
    m.Scans (fun shape => shape.hasTrait trait = true) (m.index.shapesWithTrait trait)
      (m.shapesWithTrait trait) := by
  have hids : m.index.shapesWithTrait trait =
      (m.shapes.entries.filter fun shape => shape.hasTrait trait).map Shape.id := by
    rw [hindex, Index.shapesWithTrait_ofShapes]
  exact m.scans_shapesAt _ hids

theorem flatMap_shapesOfType_perm (hindex : m.index = .ofShapes m.shapes) :
    (ShapeType.all.flatMap m.shapesOfType).Perm m.shapes.entries := by
  have hids : (ShapeType.all.flatMap m.shapesOfType).map Shape.id =
      ShapeType.all.flatMap m.index.shapesOfType := by
    rw [List.map_flatMap]
    exact List.flatMap_congr fun type _ => (scans_shapesOfType hindex type).map_id
  have hnodup : (ShapeType.all.flatMap m.shapesOfType).Nodup := by
    refine List.Nodup.of_map Shape.id ?_
    rw [hids]
    exact nodup_flatMap_shapesOfType hindex _ ShapeType.nodup_all
  refine (List.perm_ext_iff_of_nodup hnodup m.shapes.nodup_keys.of_map).mpr ?_
  intro shape
  simp only [List.mem_flatMap, (scans_shapesOfType hindex _).mem_iff, find?_eq_some_iff, and_true]
  constructor
  · rintro ⟨type, -, hshape, -⟩
    exact hshape
  · intro hshape
    exact ⟨shape.type, ShapeType.mem_all _, hshape, rfl⟩

/-- Looking shapes up by type or by trait is scanning the model for them. Every shape is listed for
one type and no other, so the lists of all types together have as many entries as the model. -/
theorem scans_of_build {config : ModelConfig} {declarations : List Declaration}
    (h : build config declarations = .ok m) :
    (∀ type, m.Scans (fun shape => shape.type = type) (m.index.shapesOfType type)
      (m.shapesOfType type)) ∧
    (∀ trait, m.Scans (fun shape => shape.hasTrait trait = true) (m.index.shapesWithTrait trait)
      (m.shapesWithTrait trait)) ∧
    (∀ id shape, m.find? id = some shape → ∃! type, id ∈ m.index.shapesOfType type) ∧
    (ShapeType.all.flatMap m.shapesOfType).Perm m.shapes.entries ∧
    (ShapeType.all.map fun type => (m.index.shapesOfType type).length).sum = m.size := by
  have hindex := index_of_build h
  have hperm := flatMap_shapesOfType_perm hindex
  refine ⟨scans_shapesOfType hindex, scans_shapesWithTrait hindex, ?_, hperm, ?_⟩
  · intro id shape hfind
    obtain ⟨hshape, rfl⟩ := find?_eq_some_iff.mp hfind
    have hlisted (type : ShapeType) :
        shape.id ∈ m.index.shapesOfType type ↔ shape.type = type := by
      rw [hindex, Index.shapesOfType_ofShapes, id_mem_map_filter hshape, decide_eq_true_eq]
    refine ⟨shape.type, (hlisted _).mpr rfl, ?_⟩
    intro type htype
    exact ((hlisted type).mp htype).symm
  · have hlength (type : ShapeType) :
        (m.index.shapesOfType type).length = (m.shapesOfType type).length := by
      rw [← (scans_shapesOfType hindex type).map_id, List.length_map]
    rw [funext hlength, ← List.length_flatMap, hperm.length_eq]
    rfl

def tagged : List Declaration :=
  [((Declaration.structure ⟨"a", "S", none⟩).add
      (.member "m" ⟨"a", "T", none⟩ [.mark ⟨"a", "tag", none⟩])).add (.mixin ⟨"a", "R", none⟩),
    ((Declaration.structure ⟨"a", "R", none⟩).annotate .mixinMarker).annotate ⟨"a", "tag", none⟩,
    (Declaration.string ⟨"a", "T", none⟩).annotate ⟨"a", "tag", none⟩]

theorem scans_of_build_tagged :
    ∃ m, build ⟨.error, false, false⟩ tagged = .ok m ∧
      (∀ type, m.Scans (fun shape => shape.type = type) (m.index.shapesOfType type)
        (m.shapesOfType type)) ∧
      (∀ trait, m.Scans (fun shape => shape.hasTrait trait = true)
        (m.index.shapesWithTrait trait) (m.shapesWithTrait trait)) ∧
      (∀ id shape, m.find? id = some shape → ∃! type, id ∈ m.index.shapesOfType type) ∧
      (ShapeType.all.flatMap m.shapesOfType).Perm m.shapes.entries ∧
      (ShapeType.all.map fun type => (m.index.shapesOfType type).length).sum = m.size := by
  have hbuilds : (build ⟨.error, false, false⟩ tagged).isOk = true := by
    simp only [build, Declarations.resolveAll, Declarations.resolutionOrder,
      DepthFirst.order_eq_workFor]
    decide +kernel
  obtain ⟨m, hbuild⟩ := exists_eq_ok_of_isOk hbuilds
  exact ⟨m, hbuild, scans_of_build hbuild⟩

example : (build ⟨.error, false, false⟩ tagged).map (fun m =>
      (m.shapesWithTrait ⟨"a", "tag", none⟩).map fun shape => (shape.id.name, shape.id.member)) =
    .ok [("R", none), ("S", none), ("S", some "m"), ("T", none)] := by
  simp only [build, Declarations.resolveAll, Declarations.resolutionOrder,
    DepthFirst.order_eq_workFor]
  decide +kernel

end SchemaQuery.Model

import SchemaQuery.Model.Basic
import SchemaQuery.Proofs.Sorted

namespace SchemaQuery.Model

open Std

variable {m : Model}

theorem find?_eq_some_iff {id : ShapeId} {shape : Shape} :
    m.find? id = some shape ↔ shape ∈ m.shapes.entries ∧ shape.id = id :=
  Sorted.find?_eq_some_iff

theorem contains_iff {id : ShapeId} :
    m.contains id = true ↔ ∃ shape ∈ m.shapes.entries, shape.id = id :=
  Sorted.contains_iff

theorem id_mem_map_id_iff {shapes : List Shape} (h : ∀ shape ∈ shapes, shape ∈ m.shapes.entries)
    {shape : Shape} (hshape : shape ∈ m.shapes.entries) :
    shape.id ∈ shapes.map Shape.id ↔ shape ∈ shapes := by
  rw [List.mem_map]
  constructor
  · rintro ⟨other, hother, hid⟩
    rwa [← Sorted.eq_of_key_eq (h other hother) hshape hid]
  · intro hmem
    exact ⟨shape, hmem, rfl⟩

theorem mem_shapesAt {ids : List ShapeId} {shape : Shape} :
    shape ∈ m.shapesAt ids ↔ shape ∈ m.shapes.entries ∧ shape.id ∈ ids := by
  simp only [shapesAt, List.mem_filterMap, find?_eq_some_iff]
  constructor
  · rintro ⟨id, hid, hshape, rfl⟩
    exact ⟨hshape, hid⟩
  · rintro ⟨hshape, hid⟩
    exact ⟨shape.id, hid, hshape, rfl⟩

theorem map_id_shapesAt (ids : List ShapeId) :
    (m.shapesAt ids).map Shape.id = ids.filter m.contains := by
  induction ids with
  | nil => rfl
  | cons id rest ih =>
      have hcontains : m.contains id = (m.find? id).isSome := m.shapes.contains_eq_isSome_find? id
      rw [shapesAt, List.filterMap_cons, List.filter_cons, hcontains, ← ih]
      cases hfind : m.find? id with
      | none => rfl
      | some shape =>
          rw [← (find?_eq_some_iff.mp hfind).2]
          rfl

theorem pairwise_shapesAt {ids : List ShapeId}
    (h : ids.Pairwise fun a b => compare a b = .lt) :
    (m.shapesAt ids).Pairwise (Sorted.Precedes Shape.id) := by
  apply h.filterMap m.find?
  intro a b hab shape hshape next hnext
  rw [Sorted.Precedes, (find?_eq_some_iff.mp hshape).2, (find?_eq_some_iff.mp hnext).2]
  exact hab

theorem shapesAt_eq_filter {ids : List ShapeId}
    (h : ids.Pairwise fun a b => compare a b = .lt) :
    m.shapesAt ids = m.shapes.entries.filter fun shape => shape.id ∈ ids := by
  refine Sorted.eq_of_mem_iff_of_pairwise (pairwise_shapesAt h) (m.shapes.ordered.filter _) ?_
  intro shape
  rw [mem_shapesAt, List.mem_filter, decide_eq_true_eq]

end SchemaQuery.Model

import SchemaQuery.Model.Index
import SchemaQuery.Proofs.Sorted

namespace SchemaQuery

namespace Grouping

variable {κ α : Type} [DecidableEq κ]

theorem get_foldl_add (pairs : List (κ × α)) (g : Grouping κ α) (k : κ) :
    (pairs.foldl (fun g (l, a) => g.add l a) g).get k =
      g.get k ++ (pairs.filter fun p => p.1 = k).map Prod.snd := by
  induction pairs generalizing g with
  | nil => simp
  | cons p pairs ih =>
      obtain ⟨l, a⟩ := p
      rw [List.foldl_cons, ih, get_add]
      by_cases h : k = l
      · simp [h]
      · have hne : ¬ l = k := fun heq => h heq.symm
        simp [h, hne]

theorem get_ofPairs (pairs : List (κ × α)) (k : κ) :
    (ofPairs pairs).get k = (pairs.filter fun p => p.1 = k).map Prod.snd :=
  get_foldl_add pairs ∅ k

end Grouping

namespace Traits

theorem contains_iff_mem_ids {traits : Traits} {id : ShapeId} :
    traits.contains id = true ↔ id ∈ traits.ids := by
  rw [contains, Sorted.contains_iff, ids, Sorted.keys, List.mem_map]

theorem nodup_ids (traits : Traits) : traits.ids.Nodup :=
  traits.byId.nodup_keys

end Traits

namespace Index

variable {shapes : Sorted Shape.id}

theorem shapesOfType_ofShapes (type : ShapeType) :
    (ofShapes shapes).shapesOfType type =
      (shapes.entries.filter fun shape => shape.type = type).map Shape.id := by
  simp only [shapesOfType, ofShapes, Grouping.get_ofPairs, List.filter_map, List.map_map]
  rfl

theorem map_filter_pair {trait : ShapeId} {ids : List ShapeId} (hids : ids.Nodup)
    (shape : ShapeId) :
    ((ids.map fun id => (id, shape)).filter fun p => p.1 = trait).map Prod.snd =
      if trait ∈ ids then [shape] else [] := by
  have hfilter : ids.filter (fun id => id = trait) = if trait ∈ ids then [trait] else [] := by
    rw [List.filter_eq, hids.count]
    split <;> rfl
  rw [List.filter_map, List.map_map]
  change (ids.filter fun id => id = trait).map (fun _ => shape) = _
  rw [hfilter]
  split <;> rfl

theorem shapesWithTrait_ofShapes (trait : ShapeId) :
    (ofShapes shapes).shapesWithTrait trait =
      (shapes.entries.filter fun shape => shape.hasTrait trait).map Shape.id := by
  simp only [shapesWithTrait, ofShapes, Grouping.get_ofPairs, List.filter_flatMap,
    List.map_flatMap, map_filter_pair (Traits.nodup_ids _), Shape.hasTrait,
    ← Traits.contains_iff_mem_ids]
  induction shapes.entries with
  | nil => rfl
  | cons shape rest ih =>
      rw [List.flatMap_cons, ih, List.filter_cons]
      split <;> rfl

end Index

end SchemaQuery

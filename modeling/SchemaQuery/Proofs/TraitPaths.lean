import SchemaQuery.Selector.Attribute

namespace SchemaQuery

namespace Node

/-- The nodes to which a path leads, in order. Each segment goes on from all those that the segments
before it have reached. -/
def along (path : List PathSegment) (value : Node) : List Node :=
  path.foldl (fun reached segment => reached.flatMap segment.follow) [value]

theorem foldl_follow (p : List PathSegment) (reached : List Node) :
    p.foldl (fun reached segment => reached.flatMap segment.follow) reached =
      reached.flatMap (along p) := by
  induction p generalizing reached with
  | nil => exact (List.flatMap_singleton' reached).symm
  | cons segment p ih =>
      have hcons (value : Node) :
          along (segment :: p) value = (segment.follow value).flatMap (along p) := by
        rw [along, List.foldl_cons, List.flatMap_singleton, ih]
      simp only [List.foldl_cons, ih, List.flatMap_assoc, funext hcons]

theorem along_cons (segment : PathSegment) (p : List PathSegment) (value : Node) :
    value.along (segment :: p) = (segment.follow value).flatMap (along p) := by
  rw [along, List.foldl_cons, foldl_follow, List.flatMap_singleton]

@[simp] theorem along_singleton (segment : PathSegment) (value : Node) :
    value.along [segment] = segment.follow value :=
  List.flatMap_singleton segment.follow value

theorem along_append (p q : List PathSegment) (value : Node) :
    value.along (p ++ q) = (value.along p).flatMap (along q) := by
  rw [along, List.foldl_append, foldl_follow]
  rfl

theorem select_eq_map_along (p : List PathSegment) (value : Node) :
    value.select p = (value.along p).map .ofNode := by
  induction p generalizing value with
  | nil => rfl
  | cons segment p ih => simp only [select, along_cons, List.map_flatMap, funext ih]

example : (Node.object [("a", .array [.null, .text "b", .object [("c", .null)], .array []])]).along
    [.key "a", .values, .key "c"] = [.null] := rfl

theorem along_length_array (items : List Node) :
    (Node.array items).along [.length] = [.int ((Node.array items).along [.values]).length] := by
  simp [PathSegment.follow]

theorem along_length_object (fields : List (String × Node)) :
    (Node.object fields).along [.length] = [.int ((Node.object fields).along [.values]).length] ∧
      ((Node.object fields).along [.keys]).length =
        ((Node.object fields).along [.values]).length := by
  simp [PathSegment.follow]

end Node

theorem AttributeFilter.test_trait_path (shape : Shape) (trait : ShapeId) (p : List PathSegment) :
    test ⟨.trait trait p, none⟩ shape = true ↔
      ∃ t, shape.trait? trait = some t ∧ t.value.along p ≠ [] := by
  simp only [test, AttributeKey.values]
  cases shape.trait? trait with
  | none => simp
  | some t => simp [Node.select_eq_map_along]

/-- Following two paths after each other is following the longer one, and the attribute has one value
for each node at the end of a path. So a filter without comparison asks for a node there, be it a
null. The length of an array or an object is the number of its values, and of its keys. -/
theorem trait_paths_compose :
    (∀ (value : Node) (p q : List PathSegment),
      value.along (p ++ q) = (value.along p).flatMap (Node.along q)) ∧
    (∀ (value : Node) (p : List PathSegment), value.select p = (value.along p).map .ofNode) ∧
    (∀ (shape : Shape) (trait : ShapeId) (p : List PathSegment),
      AttributeFilter.test ⟨.trait trait p, none⟩ shape = true ↔
        ∃ t, shape.trait? trait = some t ∧ t.value.along p ≠ []) ∧
    (∀ items, (Node.array items).along [.length] =
      [.int ((Node.array items).along [.values]).length]) ∧
    ∀ fields, (Node.object fields).along [.length] =
        [.int ((Node.object fields).along [.values]).length] ∧
      ((Node.object fields).along [.keys]).length =
        ((Node.object fields).along [.values]).length := by
  refine ⟨?_, ?_, AttributeFilter.test_trait_path, Node.along_length_array,
    Node.along_length_object⟩
  · intro value p q
    exact Node.along_append p q value
  · intro value p
    exact Node.select_eq_map_along p value

end SchemaQuery

import SchemaQuery.Proofs.ResolutionOrder

namespace SchemaQuery

def Declaration.mixinsIn (d : Declaration) (shapes : List Shape) : List Shape :=
  d.mixins.filterMap fun mixin => shapes.find? fun shape => shape.id = mixin

theorem find?_id_eq_some_iff {shapes : List Shape} (hids : (shapes.map Shape.id).Nodup)
    {id : ShapeId} {shape : Shape} :
    shapes.find? (fun shape => shape.id = id) = some shape ↔ shape ∈ shapes ∧ shape.id = id := by
  constructor
  · intro h
    exact ⟨List.mem_of_find?_eq_some h, by simpa using List.find?_some h⟩
  · rintro ⟨hshape, rfl⟩
    cases hfind : shapes.find? fun found => found.id = shape.id with
    | none => simpa using List.find?_eq_none.mp hfind shape hshape
    | some found =>
        have hid : found.id = shape.id := by simpa using List.find?_some hfind
        rw [List.inj_on_of_nodup_map hids (List.mem_of_find?_eq_some hfind) hshape hid]

namespace Declaration

variable {d : Declaration} {shapes : List Shape}

theorem mem_of_mem_mixinsIn {mixin : Shape} (h : mixin ∈ d.mixinsIn shapes) : mixin ∈ shapes := by
  obtain ⟨id, -, hfind⟩ := List.mem_filterMap.mp h
  exact List.mem_of_find?_eq_some hfind

theorem mixinsIn_eq (hids : (shapes.map Shape.id).Nodup) {mixins : List Shape}
    (hmem : ∀ mixin ∈ mixins, mixin ∈ shapes) (h : mixins.map Shape.id = d.mixins) :
    d.mixinsIn shapes = mixins := by
  rw [mixinsIn, ← h]
  clear h
  induction mixins with
  | nil => rfl
  | cons mixin mixins ih =>
      obtain ⟨hmixin, hmixins⟩ := List.forall_mem_cons.mp hmem
      rw [List.map_cons, List.filterMap_cons, (find?_id_eq_some_iff hids).mpr ⟨hmixin, rfl⟩,
        ih hmixins]

end Declaration

namespace Declarations

variable {policy : ConflictPolicy} {declared : Declarations}

theorem mem_of_resolveInOrder {order : List ShapeId} {resolved shapes : List Shape}
    (h : declared.resolveInOrder policy resolved order = .ok shapes) {shape : Shape}
    (hshape : shape ∈ resolved) : shape ∈ shapes := by
  induction order generalizing resolved with
  | nil =>
      cases h
      exact hshape
  | cons id rest ih =>
      unfold resolveInOrder at h
      split at h
      · exact ih h hshape
      · dsimp only at h
        split at h
        · cases h
        · exact ih h (List.mem_append_left _ hshape)

theorem resolveInOrder_append (resolved : List Shape) (before after : List ShapeId) :
    declared.resolveInOrder policy resolved (before ++ after) =
      match declared.resolveInOrder policy resolved before with
      | .error e => .error e
      | .ok resolved => declared.resolveInOrder policy resolved after := by
  induction before generalizing resolved with
  | nil => rfl
  | cons id rest ih =>
      rw [List.cons_append, resolveInOrder, resolveInOrder]
      split
      · exact ih resolved
      · dsimp only
        split
        · rfl
        · exact ih _

theorem resolveInOrder_cons {d : Declaration} (hd : d ∈ declared.entries) (resolved : List Shape)
    (rest : List ShapeId) :
    declared.resolveInOrder policy resolved (d.id :: rest) =
      match d.resolve policy (d.mixinsIn resolved) with
      | .error e => .error e
      | .ok shape => declared.resolveInOrder policy (resolved ++ [shape]) rest := by
  rw [resolveInOrder, Sorted.find?_eq_some_iff.mpr ⟨hd, rfl⟩]
  rfl

theorem checkMixins_of_resolutionOrder {order : List ShapeId}
    (h : declared.resolutionOrder = .ok order) :
    ∀ d ∈ declared.entries, declared.checkMixins d = .ok () := by
  rw [← forM_eq_ok_iff]
  cases hcheck : declared.entries.forM declared.checkMixins with
  | error e =>
      rw [resolutionOrder, hcheck] at h
      cases h
  | ok _ => rfl

theorem isResolutionOrder_of_resolutionOrder {order : List ShapeId}
    (h : declared.resolutionOrder = .ok order) : declared.IsResolutionOrder order := by
  have hchecked := checkMixins_of_resolutionOrder h
  rw [resolutionOrder_of_checked hchecked] at h
  split at h
  · cases h
  · next hnone =>
    cases h
    exact isResolutionOrder_searchOrder hchecked hnone

theorem exists_mixin_of_resolveAll {shapes : List Shape}
    (h : declared.resolveAll policy = .ok shapes) {d : Declaration} (hd : d ∈ declared.entries)
    {mixin : ShapeId} (hmixin : mixin ∈ d.mixins) :
    ∃ found ∈ declared.entries, found.id = mixin ∧
      found.traits.contains .mixinMarker = true ∧ found.type = d.type := by
  unfold resolveAll at h
  split at h
  · cases h
  next order horder =>
  have hcheck := forM_eq_ok_iff.mp (checkMixins_of_resolutionOrder horder d hd) mixin hmixin
  obtain ⟨-, found, hfind, hmarked, htype⟩ := checkMixin_eq_ok_iff.mp hcheck
  obtain ⟨hfound, hid⟩ := Sorted.find?_eq_some_iff.mp hfind
  exact ⟨found, hfound, hid, hmarked, htype⟩

/-- Resolution yields one shape for each declaration, resolved with mixins that it yields too. -/
structure Yields (declared : Declarations) (policy : ConflictPolicy) (shapes : List Shape) :
    Prop where
  ids : (shapes.map Shape.id).Perm declared.keys
  mixins : ∀ d ∈ declared.entries, (d.mixinsIn shapes).map Shape.id = d.mixins
  resolve : ∀ d ∈ declared.entries, ∃ shape ∈ shapes,
    d.resolve policy (d.mixinsIn shapes) = .ok shape

theorem yields_of_resolveAll {shapes : List Shape} (h : declared.resolveAll policy = .ok shapes) :
    declared.Yields policy shapes := by
  unfold resolveAll at h
  split at h
  · cases h
  next order horder =>
  have hsound := isResolutionOrder_of_resolutionOrder horder
  have hkeys : ∀ id ∈ order, id ∈ declared.keys := fun id hid => hsound.perm.mem_iff.mp hid
  have hids : shapes.map Shape.id = order := map_id_of_resolveInOrder h hkeys
  have hnodup : (shapes.map Shape.id).Nodup := hids ▸ hsound.nodup
  have hresolved : ∀ d ∈ declared.entries,
      (d.mixinsIn shapes).map Shape.id = d.mixins ∧
        ∃ shape ∈ shapes, d.resolve policy (d.mixinsIn shapes) = .ok shape := by
    intro d hd
    have hid : d.id ∈ order := hsound.perm.mem_iff.mpr (List.mem_map_of_mem hd)
    obtain ⟨before, after, rfl⟩ := List.append_of_mem hid
    rw [resolveInOrder_append] at h
    split at h
    · cases h
    next resolved hbefore =>
    rw [resolveInOrder_cons hd] at h
    split at h
    · cases h
    next shape hshape =>
    have hmem {earlier : Shape} (hearlier : earlier ∈ resolved ++ [shape]) : earlier ∈ shapes :=
      mem_of_resolveInOrder h hearlier
    have hmixins : (d.mixinsIn resolved).map Shape.id = d.mixins :=
      hsound.mixinsResolved before d after rfl hd policy resolved hbefore
    -- the mixins that were there when the shape was resolved are those that there are in the end
    have heq : d.mixinsIn shapes = d.mixinsIn resolved :=
      Declaration.mixinsIn_eq hnodup
        (fun _ hmixin => hmem (List.mem_append_left _ (Declaration.mem_of_mem_mixinsIn hmixin)))
        hmixins
    rw [heq]
    exact ⟨hmixins, shape, hmem (List.mem_append_right _ (List.mem_singleton_self shape)), hshape⟩
  exact ⟨hids ▸ hsound.perm, fun d hd => (hresolved d hd).1, fun d hd => (hresolved d hd).2⟩

namespace Yields

variable {shapes : List Shape}

theorem nodup (h : declared.Yields policy shapes) : (shapes.map Shape.id).Nodup :=
  h.ids.nodup_iff.mpr declared.nodup_keys

theorem resolve_eq_ok (h : declared.Yields policy shapes) {d : Declaration}
    (hd : d ∈ declared.entries) {shape : Shape} (hshape : shape ∈ shapes) (hid : shape.id = d.id) :
    d.resolve policy (d.mixinsIn shapes) = .ok shape := by
  obtain ⟨found, hfound, hresolve⟩ := h.resolve d hd
  have hsame : found.id = shape.id := (Declaration.of_resolve hresolve).1.trans hid.symm
  rw [List.inj_on_of_nodup_map h.nodup hfound hshape hsame] at hresolve
  exact hresolve

theorem exists_declaration (h : declared.Yields policy shapes) {shape : Shape}
    (hshape : shape ∈ shapes) :
    ∃ d ∈ declared.entries, d.resolve policy (d.mixinsIn shapes) = .ok shape := by
  have hid : shape.id ∈ declared.keys := h.ids.mem_iff.mp (List.mem_map_of_mem hshape)
  obtain ⟨d, hd, heq⟩ := List.mem_map.mp hid
  exact ⟨d, hd, h.resolve_eq_ok hd hshape heq.symm⟩

theorem exists_mixin (h : declared.Yields policy shapes) {d : Declaration}
    (hd : d ∈ declared.entries) {id : ShapeId} (hid : id ∈ d.mixins) :
    ∃ mixin ∈ d.mixinsIn shapes, mixin.id = id := by
  rw [← h.mixins d hd] at hid
  exact List.mem_map.mp hid

end Yields

/-- What resolution passes on from mixins to a shape holds of all shapes. -/
theorem forall_of_resolveInOrder {P : Shape → Prop} {order : List ShapeId}
    {resolved shapes : List Shape}
    (hstep : ∀ d ∈ declared.entries, ∀ mixins shape, (∀ mixin ∈ mixins, P mixin) →
      d.resolve policy mixins = .ok shape → P shape)
    (hresolved : ∀ shape ∈ resolved, P shape)
    (h : declared.resolveInOrder policy resolved order = .ok shapes) :
    ∀ shape ∈ shapes, P shape := by
  induction order generalizing resolved with
  | nil =>
      cases h
      exact hresolved
  | cons id rest ih =>
      unfold resolveInOrder at h
      split at h
      · exact ih hresolved h
      next d hfind =>
      dsimp only at h
      split at h
      · cases h
      next new hnew =>
      obtain ⟨hd, -⟩ := Sorted.find?_eq_some_iff.mp hfind
      refine ih (List.forall_mem_append.mpr ⟨hresolved, ?_⟩) h
      rw [List.forall_mem_singleton]
      refine hstep d hd (d.mixinsIn resolved) new ?_ hnew
      intro mixin hmixin
      exact hresolved mixin (Declaration.mem_of_mem_mixinsIn hmixin)

theorem forall_of_resolveAll {P : Shape → Prop} {shapes : List Shape}
    (hstep : ∀ d ∈ declared.entries, ∀ mixins shape, (∀ mixin ∈ mixins, P mixin) →
      d.resolve policy mixins = .ok shape → P shape)
    (h : declared.resolveAll policy = .ok shapes) : ∀ shape ∈ shapes, P shape := by
  unfold resolveAll at h
  split at h
  · cases h
  · exact forall_of_resolveInOrder hstep (List.forall_mem_nil _) h

end Declarations

end SchemaQuery

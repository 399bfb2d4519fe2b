import SchemaQuery.Proofs.Containment

namespace SchemaQuery

namespace Declarations

variable {policy : ConflictPolicy} {declared more : Declarations}

theorem IsResolutionOrder.forall_resolved {order : List ShapeId}
    (hsound : declared.IsResolutionOrder order) {P : Shape → Prop}
    (hstep : ∀ d ∈ declared.entries, ∀ mixins shape, mixins.map Shape.id = d.mixins →
      (∀ mixin ∈ mixins, P mixin) → d.resolve policy mixins = .ok shape → P shape)
    {before rest : List ShapeId} (horder : order = before ++ rest) {resolved shapes : List Shape}
    (hbefore : declared.resolveInOrder policy [] before = .ok resolved)
    (hresolved : ∀ shape ∈ resolved, P shape)
    (h : declared.resolveInOrder policy resolved rest = .ok shapes) :
    ∀ shape ∈ shapes, P shape := by
  induction rest generalizing before resolved with
  | nil =>
      cases h
      exact hresolved
  | cons id rest ih =>
      have hid : id ∈ declared.keys := by
        rw [← hsound.perm.mem_iff, horder]
        exact List.mem_append_right _ List.mem_cons_self
      obtain ⟨d, hd, rfl⟩ := List.mem_map.mp hid
      -- it is the place in the order that provides the mixins, of which `P` is known by now
      have hmixins : (d.mixinsIn resolved).map Shape.id = d.mixins :=
        hsound.mixinsResolved before d rest horder hd policy resolved hbefore
      rw [resolveInOrder_cons hd] at h
      split at h
      · cases h
      next new hnew =>
      have hlonger : declared.resolveInOrder policy [] (before ++ [d.id]) =
          .ok (resolved ++ [new]) := by
        rw [resolveInOrder_append, hbefore]
        dsimp only
        rw [resolveInOrder_cons hd, hnew]
        rfl
      refine ih ?_ hlonger ?_ h
      · rw [horder, List.append_assoc, List.singleton_append]
      · refine List.forall_mem_append.mpr ⟨hresolved, List.forall_mem_singleton.mpr ?_⟩
        refine hstep d hd (d.mixinsIn resolved) new hmixins ?_ hnew
        intro mixin hmixin
        exact hresolved mixin (Declaration.mem_of_mem_mixinsIn hmixin)

theorem subset_of_resolveAll {shapes moreShapes : List Shape}
    (hsub : declared.entries ⊆ more.entries) (h : declared.resolveAll policy = .ok shapes)
    (hmore : more.resolveAll policy = .ok moreShapes) : shapes ⊆ moreShapes := by
  have hyields := yields_of_resolveAll hmore
  unfold resolveAll at h
  split at h
  · cases h
  next order horder =>
  have hsound := isResolutionOrder_of_resolutionOrder horder
  intro shape hshape
  refine hsound.forall_resolved (P := (· ∈ moreShapes)) ?_ (List.nil_append order).symm rfl
    (List.forall_mem_nil _) h shape hshape
  intro d hd mixins shape hids hmixins hresolve
  -- the same mixins are found among more shapes, so the declaration is resolved to the same shape
  have hsame : d.mixinsIn moreShapes = mixins :=
    Declaration.mixinsIn_eq hyields.nodup hmixins hids
  obtain ⟨found, hfound, hagain⟩ := hyields.resolve d (hsub hd)
  rw [hsame, hresolve] at hagain
  cases hagain
  exact hfound

/-- A declaration is resolved to the same shape with and without further declarations. -/
theorem resolveAll_eq_within {shapes moreShapes : List Shape}
    (hsub : declared.entries ⊆ more.entries) (h : declared.resolveAll policy = .ok shapes)
    (hmore : more.resolveAll policy = .ok moreShapes) :
    ∀ d ∈ declared.entries, ∃ shape, shapes.find? (fun shape => shape.id = d.id) = some shape ∧
      moreShapes.find? (fun shape => shape.id = d.id) = some shape := by
  have hyields := yields_of_resolveAll h
  have hmoreYields := yields_of_resolveAll hmore
  intro d hd
  obtain ⟨shape, hshape, hresolve⟩ := hyields.resolve d hd
  have hid : shape.id = d.id := (Declaration.of_resolve hresolve).1
  refine ⟨shape, ?_, ?_⟩
  · exact (find?_id_eq_some_iff hyields.nodup).mpr ⟨hshape, hid⟩
  · have hmem := subset_of_resolveAll hsub h hmore hshape
    exact (find?_id_eq_some_iff hmoreYields.nodup).mpr ⟨hmem, hid⟩

def heir : List Declaration :=
  [((Declaration.structure ⟨"a", "M", none⟩).annotate .mixinMarker).withMember "x"
      ⟨"a", "T", none⟩,
    (Declaration.structure ⟨"a", "S", none⟩).add (.mixin ⟨"a", "M", none⟩)]

def heirAndOthers : List Declaration :=
  heir ++ [(Declaration.structure ⟨"a", "R", none⟩).add (.mixin ⟨"a", "M", none⟩),
    Declaration.string ⟨"a", "K", none⟩]

theorem resolveAll_eq_within_heir :
    (Sorted.ofList heir : Declarations).entries ⊆
      (Sorted.ofList heirAndOthers : Declarations).entries ∧
    resolutionOrder (.ofList heir) = .ok [⟨"a", "M", none⟩, ⟨"a", "S", none⟩] ∧
    resolutionOrder (.ofList heirAndOthers) =
      .ok [⟨"a", "M", none⟩, ⟨"a", "R", none⟩, ⟨"a", "S", none⟩, ⟨"a", "K", none⟩] ∧
    ∃ shapes moreShapes, resolveAll .error (.ofList heir) = .ok shapes ∧
      resolveAll .error (.ofList heirAndOthers) = .ok moreShapes ∧
      ∀ d ∈ (Sorted.ofList heir : Declarations).entries, ∃ shape,
        shapes.find? (fun shape => shape.id = d.id) = some shape ∧
        moreShapes.find? (fun shape => shape.id = d.id) = some shape := by
  have hsub : (Sorted.ofList heir : Declarations).entries ⊆
      (Sorted.ofList heirAndOthers : Declarations).entries := by decide +kernel
  have horder : resolutionOrder (.ofList heir) = .ok [⟨"a", "M", none⟩, ⟨"a", "S", none⟩] := by
    simp only [resolutionOrder, DepthFirst.order_eq_workFor]
    decide +kernel
  have hmoreOrder : resolutionOrder (.ofList heirAndOthers) =
      .ok [⟨"a", "M", none⟩, ⟨"a", "R", none⟩, ⟨"a", "S", none⟩, ⟨"a", "K", none⟩] := by
    simp only [resolutionOrder, DepthFirst.order_eq_workFor]
    decide +kernel
  have hresolves : (resolveAll .error (.ofList heir)).isOk = true := by
    simp only [resolveAll, horder]
    decide +kernel
  have hmoreResolves : (resolveAll .error (.ofList heirAndOthers)).isOk = true := by
    simp only [resolveAll, hmoreOrder]
    decide +kernel
  obtain ⟨shapes, h⟩ := exists_eq_ok_of_isOk hresolves
  obtain ⟨moreShapes, hmore⟩ := exists_eq_ok_of_isOk hmoreResolves
  exact ⟨hsub, horder, hmoreOrder, shapes, moreShapes, h, hmore,
    resolveAll_eq_within hsub h hmore⟩

end Declarations

namespace Model

variable {config larger : ModelConfig} {declarations others : List Declaration}

theorem withPrelude_subset (h : config.includePrelude = true → larger.includePrelude = true) :
    withPrelude config declarations ⊆ withPrelude larger (declarations ++ others) := by
  intro d hd
  have hmem : d ∈ declarations ∨ config.includePrelude = true ∧ d ∈ Prelude.declarations := by
    unfold withPrelude at hd
    split at hd
    next hprelude => exact (List.mem_append.mp hd).imp_right fun hmem => ⟨hprelude, hmem⟩
    next => exact .inl hd
  unfold withPrelude
  rcases hmem with hmem | ⟨hprelude, hmem⟩
  · split
    · exact List.mem_append_left _ (List.mem_append_left _ hmem)
    · exact List.mem_append_left _ hmem
  · rw [if_pos (h hprelude)]
    exact List.mem_append_right _ hmem

theorem find?_of_build_append {m bigger : Model} (hconflicts : larger.conflicts = config.conflicts)
    (hprelude : config.includePrelude = true → larger.includePrelude = true)
    (h : build config declarations = .ok m)
    (hlarger : build larger (declarations ++ others) = .ok bigger) {id : ShapeId} {shape : Shape}
    (hfind : m.find? id = some shape) : bigger.find? id = some shape := by
  obtain ⟨declared, tops, hcollect, hresolve, hshapes, -⟩ := build_eq_ok_iff.mp h
  obtain ⟨more, moreTops, hmoreCollect, hmoreResolve, hmoreShapes, -⟩ := build_eq_ok_iff.mp hlarger
  rw [hconflicts] at hmoreResolve
  have hsub : declared.entries ⊆ more.entries := by
    intro d hd
    have hmem := ((mem_collect_iff hcollect).mp hd).resolve_right List.not_mem_nil
    exact (mem_collect_iff hmoreCollect).mpr (.inl (withPrelude_subset hprelude hmem))
  have htops : tops ⊆ moreTops := Declarations.subset_of_resolveAll hsub hresolve hmoreResolve
  have hgathers := gathers_of_resolveAll hcollect hresolve hshapes
  have hmoreGathers := gathers_of_resolveAll hmoreCollect hmoreResolve hmoreShapes
  rw [find?_eq_some_iff, hgathers.mem_iff] at hfind
  obtain ⟨⟨top, htop, hshape⟩, hid⟩ := hfind
  rw [find?_eq_some_iff, hmoreGathers.mem_iff]
  exact ⟨⟨top, htops htop, hshape⟩, hid⟩

end Model

end SchemaQuery

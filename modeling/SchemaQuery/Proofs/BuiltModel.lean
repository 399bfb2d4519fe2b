import SchemaQuery.Proofs.CollectedDeclarations
import SchemaQuery.Proofs.IdText
import SchemaQuery.Proofs.Resolution

namespace SchemaQuery

open Std

theorem ShapeId.wellFormed_of_withMember {id child : ShapeId} {member : String}
    (hid : id.WellFormed) (h : id.withMember member = .ok child) : child.WellFormed := by
  unfold withMember at h
  split at h
  · cases h
  · next hmember =>
    cases h
    refine ⟨hid.namespaceName, hid.name, ?_⟩
    rintro name ⟨⟩
    simpa using hmember

namespace Model

theorem mem_addShape_iff {shapes added : Sorted Shape.id} {new : Shape}
    (h : addShape shapes new = .ok added) {shape : Shape} :
    shape ∈ added.entries ↔ shape = new ∨ shape ∈ shapes.entries := by
  unfold addShape at h
  split at h
  · cases h
  · next hnew =>
    cases h
    rw [Sorted.mem_insert]
    refine or_congr_right ⟨And.left, ?_⟩
    intro hshape
    exact ⟨hshape, fun hid => hnew (Sorted.contains_iff.mpr ⟨shape, hshape, hid⟩)⟩

theorem mem_addMembers_iff {container : ShapeId} {shapes added : Sorted Shape.id}
    {members : List Member} (h : addMembers container shapes members = .ok added)
    {shape : Shape} :
    shape ∈ added.entries ↔ (∃ m ∈ members, shape = m.toShape) ∨ shape ∈ shapes.entries := by
  induction members generalizing shapes with
  | nil =>
      cases h
      simp
  | cons m rest ih =>
      unfold addMembers at h
      split at h
      · cases h
      · split at h
        · cases h
        · next next hnext =>
          rw [ih h, mem_addShape_iff hnext, List.exists_mem_cons_iff, or_left_comm, or_assoc]

theorem mem_addAll_iff {shapes added : Sorted Shape.id} {new : List Shape}
    (h : addAll shapes new = .ok added) {shape : Shape} :
    shape ∈ added.entries ↔
      (∃ top ∈ new, shape = top ∨ ∃ m ∈ top.members, shape = m.toShape) ∨
        shape ∈ shapes.entries := by
  induction new generalizing shapes with
  | nil =>
      cases h
      simp
  | cons top rest ih =>
      unfold addAll at h
      split at h
      · cases h
      · next withMembers hmembers =>
        split at h
        · cases h
        · next withTop htop =>
          rw [ih h, mem_addShape_iff htop, mem_addMembers_iff hmembers, List.exists_mem_cons_iff]
          simp only [or_assoc, or_left_comm]

theorem build_eq_ok_iff {config : ModelConfig} {declarations : List Declaration} {m : Model} :
    build config declarations = .ok m ↔
      ∃ declared shapes, collect ∅ (withPrelude config declarations) = .ok declared ∧
        declared.resolveAll config.conflicts = .ok shapes ∧ ofShapes shapes = .ok m ∧
        (config.requireTraitDefinitions = true → m.checkTraits = .ok ()) := by
  constructor
  · intro h
    unfold build at h
    split at h
    · cases h
    · next declared hcollect =>
      split at h
      · cases h
      · next shapes hresolve =>
        split at h
        · cases h
        · next built hbuilt =>
          split at h
          · obtain ⟨⟨⟩, hcheck, rfl⟩ := map_eq_ok_iff.mp h
            exact ⟨declared, shapes, hcollect, hresolve, hbuilt, fun _ => hcheck⟩
          · next hrequire =>
            cases h
            exact ⟨declared, shapes, hcollect, hresolve, hbuilt, fun h => absurd h hrequire⟩
  · rintro ⟨declared, shapes, hcollect, hresolve, hshapes, hcheck⟩
    simp only [build, hcollect, hresolve, hshapes]
    split
    · next hrequire => rw [hcheck hrequire, Except.map]
    · rfl

theorem ofShapes_eq_ok_iff {shapes : List Shape} {m : Model} :
    ofShapes shapes = .ok m ↔ addAll ∅ shapes = .ok m.shapes ∧ m.index = .ofShapes m.shapes := by
  unfold ofShapes
  rw [map_eq_ok_iff]
  constructor
  · rintro ⟨added, hadd, rfl⟩
    exact ⟨hadd, rfl⟩
  · rintro ⟨hadd, hindex⟩
    exact ⟨m.shapes, hadd, by rw [← hindex]⟩

variable {config : ModelConfig} {declarations : List Declaration} {m : Model}

theorem build_of_resolutionOrder {declared : Declarations} {order : List ShapeId}
    (hcollect : collect ∅ (withPrelude config declarations) = .ok declared)
    (horder : declared.resolutionOrder = .ok order)
    (hm : (declared.resolveInOrder config.conflicts [] order).bind ofShapes = .ok m)
    (hrequire : config.requireTraitDefinitions = false) : build config declarations = .ok m := by
  cases hresolve : declared.resolveInOrder config.conflicts [] order with
  | error e =>
      rw [hresolve] at hm
      cases hm
  | ok shapes =>
      rw [hresolve] at hm
      have hall : declared.resolveAll config.conflicts = .ok shapes := by
        rw [Declarations.resolveAll, horder]
        exact hresolve
      exact build_eq_ok_iff.mpr ⟨declared, shapes, hcollect, hall, hm, by simp [hrequire]⟩

theorem index_of_build (h : build config declarations = .ok m) :
    m.index = .ofShapes m.shapes := by
  obtain ⟨_, _, _, _, hshapes, _⟩ := build_eq_ok_iff.mp h
  exact (ofShapes_eq_ok_iff.mp hshapes).2

theorem wellFormed_of_mem_prelude {d : Declaration} (hd : d ∈ Prelude.declarations) :
    d.id.WellFormed := by
  revert d
  decide +kernel

theorem wellFormed_of_build (h : build config declarations = .ok m)
    (hids : ∀ d ∈ declarations, d.id.WellFormed) {shape : Shape}
    (hshape : shape ∈ m.shapes.entries) : shape.id.WellFormed := by
  obtain ⟨declared, shapes, hcollect, hresolve, hshapes, -⟩ := build_eq_ok_iff.mp h
  have hdeclared : ∀ d ∈ declared.entries, d.id.WellFormed :=
    forall_of_collect (fun _ => wellFormed_of_mem_prelude) hids hcollect
  have hadd := (ofShapes_eq_ok_iff.mp hshapes).1
  obtain ⟨top, htop, hor⟩ := ((mem_addAll_iff hadd).mp hshape).resolve_right List.not_mem_nil
  obtain ⟨d, hd, mixins, hd'⟩ := Declarations.exists_resolve_of_resolveAll hresolve htop
  obtain ⟨hid, hmembers⟩ := Declaration.of_resolve hd'
  rcases hor with rfl | ⟨member, hmember, rfl⟩
  · rw [hid]
    exact hdeclared d hd
  · obtain ⟨name, hname⟩ := hmembers member hmember
    exact ShapeId.wellFormed_of_withMember (hdeclared d hd) hname

end Model

end SchemaQuery

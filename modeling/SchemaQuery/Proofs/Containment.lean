import Mathlib.Data.List.Nodup
import SchemaQuery.Proofs.BuiltModel
import SchemaQuery.Proofs.ModelLookup
import SchemaQuery.Proofs.ResolvedMembers

/-!
What holds of the shapes of every built model: each stands under its own id, and members and their
containers know each other.
-/

namespace SchemaQuery

open Std

/-- The representation of models: shapes in id order, every member beside its container, and the
members of a container under its id. -/
structure Model.Coherent (m : Model) : Prop where
  ordered : m.ids.Pairwise fun a b => compare a b = .lt
  mem_ids_iff : ∀ id, id ∈ m.ids ↔ ∃ shape, m.find? id = some shape
  id_eq : ∀ id shape, m.find? id = some shape → shape.id = id
  member : ∀ id shape, m.find? id = some shape → shape.type = .member →
    ∃ name container found, shape.id.member = some name ∧
      m.find? shape.id.container = some container ∧ container.type ≠ .member ∧
      shape.asMember?.map Prod.fst = some container.id ∧
      container.member? name = some found ∧ found.toShape = shape
  aggregate : ∀ id shape type, m.find? id = some shape → shape.type = .aggregate type →
    ∀ name, (shape.member? name).map Member.toShape =
      m.find? (shape.id.memberNamed name)
  memberless : ∀ id shape, m.find? id = some shape → shape.type ≠ .member →
    (∀ type, shape.type ≠ .aggregate type) →
    ∀ name, m.find? (shape.id.memberNamed name) = none
  distinct : ∀ id shape, m.find? id = some shape →
    (shape.members.map fun found => found.id.member).Nodup
  list : ∀ id shape, m.find? id = some shape →
    shape.type = .aggregate .list ∨ shape.type = .aggregate .set →
    shape.members.map (fun found => found.id.member) = [some "member"]
  map : ∀ id shape, m.find? id = some shape → shape.type = .aggregate .map →
    (shape.members.map fun found => found.id.member).Perm [some "key", some "value"]
  topLevel : ∀ id shape, m.find? id = some shape → shape.type ≠ .member → shape.id.member = none

structure Shape.TopLevel (shape : Shape) : Prop where
  id : shape.id.member = none
  type : shape.type ≠ .member
  members : ∀ m ∈ shape.members, m.container = shape.id ∧
    ∃ name, m.id = shape.id.memberNamed name
  fixed : ∀ type names, shape.type = .aggregate type → type.fixedMembers = some names →
    (shape.members.map fun m => m.id.member).Perm (names.map some)

namespace Shape

theorem members_eq_nil {shape : Shape} (h : ∀ type, shape.type ≠ .aggregate type) :
    shape.members = [] := by
  unfold members
  split
  · next type _ hcontent =>
    refine absurd ?_ (h type)
    rw [Shape.type, hcontent, Content.type]
  · rfl

theorem TopLevel.member?_eq_some_iff {shape : Shape} (h : shape.TopLevel)
    (hdistinct : (shape.members.map Member.id).Nodup) {name : String} {m : Member} :
    shape.member? name = some m ↔
      m ∈ shape.members ∧ m.id = shape.id.memberNamed name := by
  have hid {m : Member} (hm : m ∈ shape.members) (hname : m.id.member = some name) :
      m.id = shape.id.memberNamed name := by
    obtain ⟨-, other, hother⟩ := h.members m hm
    rw [hother, ShapeId.member_memberNamed, Option.some.injEq] at hname
    rw [hother, hname]
  constructor
  · intro hfind
    have hm := List.mem_of_find?_eq_some hfind
    exact ⟨hm, hid hm (by simpa using List.find?_some hfind)⟩
  · rintro ⟨hm, hname⟩
    cases hfind : shape.member? name with
    | none =>
        have hmissing := List.find?_eq_none.mp hfind m hm
        simp [hname] at hmissing
    | some found =>
        have hfound := List.mem_of_find?_eq_some hfind
        have heq : found.id = m.id :=
          (hid hfound (by simpa using List.find?_some hfind)).trans hname.symm
        rw [List.inj_on_of_nodup_map hdistinct hfound hm heq]

theorem TopLevel.nodup_names {shape : Shape} (h : shape.TopLevel)
    (hdistinct : (shape.members.map Member.id).Nodup) :
    (shape.members.map fun m => m.id.member).Nodup := by
  -- the ids only differ in the names
  have hids : shape.members.map Member.id =
      (shape.members.map fun m => m.id.member).map fun name =>
        { shape.id with member := name } := by
    rw [List.map_map]
    refine List.map_congr_left ?_
    intro m hm
    obtain ⟨-, name, hname⟩ := h.members m hm
    rw [Function.comp_apply, hname]
    rfl
  rw [hids] at hdistinct
  exact hdistinct.of_map

end Shape

namespace Declaration

variable {policy : ConflictPolicy} {d : Declaration} {mixins : List Shape} {shape : Shape}

theorem perm_of_checkNames {effective : List EffectiveMember} {type : AggregateType}
    {names : List String} (htype : d.type = .aggregate type)
    (hnames : type.fixedMembers = some names)
    (h : EffectiveMember.checkNames d effective = .ok ()) :
    (effective.map EffectiveMember.name).Perm names := by
  unfold EffectiveMember.checkNames at h
  unfold Declaration.type at htype
  cases hcontent : d.content with
  | aggregate type' members =>
      rw [hcontent] at htype h
      cases htype
      dsimp only at h
      rw [hnames] at h
      dsimp only at h
      split at h
      · next heq => exact heq ▸ (List.mergeSort_perm _ _).symm
      · cases h
  | simple | member | service | resource | operation =>
      rw [hcontent] at htype
      cases htype

theorem topLevel_of_resolve (hid : d.id.member = none) (h : d.resolve policy mixins = .ok shape) :
    shape.TopLevel := by
  obtain ⟨effective, -, -, hcheck, hcontent, hshape, -⟩ := resolve_eq_ok_iff.mp h
  obtain ⟨htype, hnotMember, -⟩ := of_resolveContent hcontent
  have hmembers {type : AggregateType} (haggregate : shape.type = .aggregate type) :
      shape.members = effective.map (EffectiveMember.frozen shape.id) := by
    rw [hshape]
    exact members_eq_of_content hcontent haggregate
  refine ⟨hshape ▸ hid, hnotMember, ?_, ?_⟩
  · intro m hm
    by_cases haggregate : ∃ type, shape.type = .aggregate type
    · obtain ⟨type, haggregate⟩ := haggregate
      rw [hmembers haggregate] at hm
      obtain ⟨e, -, rfl⟩ := List.mem_map.mp hm
      exact ⟨rfl, e.name, rfl⟩
    · rw [Shape.members_eq_nil (not_exists.mp haggregate)] at hm
      cases hm
  · intro type names haggregate hnames
    have hperm := perm_of_checkNames (htype.symm.trans haggregate) hnames hcheck
    rw [hmembers haggregate, List.map_map]
    simpa [Function.comp_def, EffectiveMember.frozen] using hperm.map some

end Declaration

namespace Model

theorem id_ne_of_addShape {shapes added : Sorted Shape.id} {new : Shape}
    (h : addShape shapes new = .ok added) : ∀ shape ∈ shapes.entries, shape.id ≠ new.id := by
  unfold addShape at h
  split at h
  · cases h
  · next hnew =>
    intro shape hshape hid
    exact hnew (Sorted.contains_iff.mpr ⟨shape, hshape, hid⟩)

theorem nodup_of_addMembers {container : ShapeId} {shapes added : Sorted Shape.id}
    {members : List Member} (h : addMembers container shapes members = .ok added) :
    (members.map Member.id).Nodup ∧ ∀ m ∈ members, ∀ shape ∈ shapes.entries, shape.id ≠ m.id := by
  induction members generalizing shapes with
  | nil => exact ⟨List.nodup_nil, List.forall_mem_nil _⟩
  | cons m rest ih =>
      unfold addMembers at h
      split at h
      · cases h
      split at h
      · cases h
      next next hnext =>
      obtain ⟨hnodup, hfresh⟩ := ih h
      constructor
      · rw [List.map_cons, List.nodup_cons]
        refine ⟨?_, hnodup⟩
        intro hmem
        obtain ⟨later, hlater, hid⟩ := List.mem_map.mp hmem
        exact hfresh later hlater m.toShape ((mem_addShape_iff hnext).mpr (.inl rfl)) hid.symm
      · rw [List.forall_mem_cons]
        refine ⟨id_ne_of_addShape hnext, ?_⟩
        intro later hlater shape hshape
        exact hfresh later hlater shape ((mem_addShape_iff hnext).mpr (.inr hshape))

theorem nodup_of_addAll {shapes added : Sorted Shape.id} {new : List Shape}
    (h : addAll shapes new = .ok added) : ∀ top ∈ new, (top.members.map Member.id).Nodup := by
  induction new generalizing shapes with
  | nil => exact List.forall_mem_nil _
  | cons top rest ih =>
      unfold addAll at h
      split at h
      · cases h
      next hmembers =>
      split at h
      · cases h
      rw [List.forall_mem_cons]
      exact ⟨(nodup_of_addMembers hmembers).1, ih h⟩

structure Gathers (m : Model) (tops : List Shape) : Prop where
  topLevel : ∀ top ∈ tops, top.TopLevel
  distinct : ∀ top ∈ tops, (top.members.map Member.id).Nodup
  mem_iff : ∀ shape, shape ∈ m.shapes.entries ↔
    ∃ top ∈ tops, shape = top ∨ ∃ found ∈ top.members, shape = found.toShape

namespace Gathers

variable {m : Model} {tops : List Shape} {shape : Shape}

theorem mem_of_mem_tops (h : m.Gathers tops) (hshape : shape ∈ tops) :
    shape ∈ m.shapes.entries :=
  (h.mem_iff shape).mpr ⟨shape, hshape, .inl rfl⟩

theorem toShape_mem (h : m.Gathers tops) {top : Shape} (htop : top ∈ tops) {found : Member}
    (hfound : found ∈ top.members) : found.toShape ∈ m.shapes.entries :=
  (h.mem_iff _).mpr ⟨top, htop, .inr ⟨found, hfound, rfl⟩⟩

theorem mem_tops (h : m.Gathers tops) (hshape : shape ∈ m.shapes.entries)
    (htype : shape.type ≠ .member) : shape ∈ tops := by
  obtain ⟨top, htop, rfl | ⟨found, -, rfl⟩⟩ := (h.mem_iff shape).mp hshape
  · exact htop
  · exact absurd rfl htype

theorem exists_container (h : m.Gathers tops) (hshape : shape ∈ m.shapes.entries)
    (htype : shape.type = .member) :
    ∃ top ∈ tops, ∃ found ∈ top.members, found.toShape = shape := by
  obtain ⟨top, htop, rfl | ⟨found, hfound, rfl⟩⟩ := (h.mem_iff shape).mp hshape
  · exact absurd htype (h.topLevel shape htop).type
  · exact ⟨top, htop, found, hfound, rfl⟩

theorem find?_withMember (h : m.Gathers tops) {top : Shape} (htop : top ∈ tops) (name : String) :
    m.find? (top.id.memberNamed name) = (top.member? name).map Member.toShape := by
  have hlevel := h.topLevel top htop
  apply Option.ext
  intro shape
  rw [find?_eq_some_iff, Option.map_eq_some_iff]
  constructor
  · rintro ⟨hshape, hid⟩
    obtain ⟨container, hcontainer, rfl | ⟨found, hfound, rfl⟩⟩ := (h.mem_iff shape).mp hshape
    · -- a shape that is declared has no member part in its id
      have hnone := (h.topLevel shape hcontainer).id
      rw [hid] at hnone
      cases hnone
    · -- the container has the same id, and ids are unique
      obtain ⟨-, other, hother⟩ := (h.topLevel container hcontainer).members found hfound
      have hname : container.id.memberNamed other = top.id.memberNamed name :=
        hother.symm.trans hid
      have hsame : container.id = top.id := by
        rw [← ShapeId.container_eq_self (h.topLevel container hcontainer).id,
          ← ShapeId.container_eq_self hlevel.id, ← ShapeId.container_memberNamed container.id other,
          hname, ShapeId.container_memberNamed]
      have heq : container = top := Sorted.eq_of_key_eq (h.mem_of_mem_tops hcontainer)
        (h.mem_of_mem_tops htop) hsame
      subst heq
      exact ⟨found, (hlevel.member?_eq_some_iff (h.distinct container htop)).mpr ⟨hfound, hid⟩,
        rfl⟩
  · rintro ⟨found, hfound, rfl⟩
    obtain ⟨hfound, hid⟩ := (hlevel.member?_eq_some_iff (h.distinct top htop)).mp hfound
    exact ⟨h.toShape_mem htop hfound, hid⟩

theorem coherent (h : m.Gathers tops) : m.Coherent where
  ordered := m.shapes.pairwise_keys
  mem_ids_iff := by
    intro id
    simp only [ids, Sorted.keys, List.mem_map, find?_eq_some_iff]
  id_eq := fun id shape hfind => (find?_eq_some_iff.mp hfind).2
  member := by
    intro id shape hfind htype
    obtain ⟨hshape, -⟩ := find?_eq_some_iff.mp hfind
    obtain ⟨top, htop, found, hfound, rfl⟩ := h.exists_container hshape htype
    have hlevel := h.topLevel top htop
    obtain ⟨hcontainer, name, hname⟩ := hlevel.members found hfound
    have hid : found.toShape.id.container = top.id := by
      rw [Member.toShape, hname, ShapeId.container_memberNamed,
        ShapeId.container_eq_self hlevel.id]
    refine ⟨name, top, found, ?_, ?_, hlevel.type, ?_, ?_, rfl⟩
    · rw [Member.toShape, hname, ShapeId.member_memberNamed]
    · rw [hid]
      exact find?_eq_some_iff.mpr ⟨h.mem_of_mem_tops htop, rfl⟩
    · rw [← hcontainer]
      rfl
    · exact (hlevel.member?_eq_some_iff (h.distinct top htop)).mpr ⟨hfound, hname⟩
  aggregate := by
    intro id shape type hfind htype name
    obtain ⟨hshape, -⟩ := find?_eq_some_iff.mp hfind
    exact (h.find?_withMember (h.mem_tops hshape (htype ▸ ShapeType.noConfusion)) name).symm
  memberless := by
    intro id shape hfind htype hnone name
    obtain ⟨hshape, -⟩ := find?_eq_some_iff.mp hfind
    rw [h.find?_withMember (h.mem_tops hshape htype), Shape.member?, Shape.members_eq_nil hnone]
    rfl
  distinct := by
    intro id shape hfind
    obtain ⟨hshape, -⟩ := find?_eq_some_iff.mp hfind
    by_cases htype : shape.type = .member
    · have hnone : shape.members = [] := Shape.members_eq_nil (by simp [htype])
      rw [hnone]
      exact List.nodup_nil
    · have htop := h.mem_tops hshape htype
      exact (h.topLevel shape htop).nodup_names (h.distinct shape htop)
  list := by
    intro id shape hfind htype
    obtain ⟨hshape, -⟩ := find?_eq_some_iff.mp hfind
    rw [← List.perm_singleton]
    rcases htype with htype | htype
    all_goals
      have htop := h.mem_tops hshape (htype ▸ ShapeType.noConfusion)
      exact (h.topLevel shape htop).fixed _ ["member"] htype rfl
  map := by
    intro id shape hfind htype
    obtain ⟨hshape, -⟩ := find?_eq_some_iff.mp hfind
    have htop := h.mem_tops hshape (htype ▸ ShapeType.noConfusion)
    exact (h.topLevel shape htop).fixed _ ["key", "value"] htype rfl
  topLevel := by
    intro id shape hfind htype
    obtain ⟨hshape, -⟩ := find?_eq_some_iff.mp hfind
    exact (h.topLevel shape (h.mem_tops hshape htype)).id

end Gathers

theorem gathers_of_resolveAll {policy : ConflictPolicy} {declarations : List Declaration}
    {declared : Declarations} {tops : List Shape} {m : Model}
    (hcollect : collect ∅ declarations = .ok declared)
    (hresolve : declared.resolveAll policy = .ok tops) (hshapes : ofShapes tops = .ok m) :
    m.Gathers tops := by
  have hadd := (ofShapes_eq_ok_iff.mp hshapes).1
  refine ⟨?_, nodup_of_addAll hadd, ?_⟩
  · intro top htop
    obtain ⟨d, hd, mixins, hd'⟩ := Declarations.exists_resolve_of_resolveAll hresolve htop
    have hid := (admissible_of_mem_collect hcollect hd).topLevel
    exact Declaration.topLevel_of_resolve hid hd'
  · intro shape
    rw [mem_addAll_iff hadd]
    exact or_iff_left List.not_mem_nil

theorem gathers_of_build {config : ModelConfig} {declarations : List Declaration} {m : Model}
    (h : build config declarations = .ok m) : ∃ tops, m.Gathers tops := by
  obtain ⟨declared, tops, hcollect, hresolve, hshapes, -⟩ := build_eq_ok_iff.mp h
  exact ⟨tops, gathers_of_resolveAll hcollect hresolve hshapes⟩

/-- What declarations are built to is coherent, whatever they inherit and whatever the settings. -/
theorem coherent_of_build {config : ModelConfig} {declarations : List Declaration} {m : Model}
    (h : build config declarations = .ok m) : m.Coherent := by
  obtain ⟨tops, hgathers⟩ := gathers_of_build h
  exact hgathers.coherent

def heirs : List Declaration :=
  [.string ⟨"a", "T", none⟩,
    ((Declaration.structure ⟨"a", "M", none⟩).annotate .mixinMarker).withMember "x"
      ⟨"a", "T", none⟩,
    ((Declaration.structure ⟨"a", "S", none⟩).add (.mixin ⟨"a", "M", none⟩)).withMember "y"
      ⟨"a", "T", none⟩]

theorem coherent_of_build_heirs :
    ∃ m, build ⟨.error, false, false⟩ heirs = .ok m ∧ m.Coherent := by
  have hbuilds : (build ⟨.error, false, false⟩ heirs).isOk = true := by
    simp only [build, Declarations.resolveAll, Declarations.resolutionOrder,
      DepthFirst.order_eq_workFor]
    decide +kernel
  obtain ⟨m, hbuild⟩ := exists_eq_ok_of_isOk hbuilds
  exact ⟨m, hbuild, coherent_of_build hbuild⟩

example : (build ⟨.error, false, false⟩ heirs).map
      (fun m => m.ids.map fun id => (id.name, id.member)) =
    .ok [("M", none), ("M", some "x"), ("S", none), ("S", some "x"), ("S", some "y"),
      ("T", none)] := by
  simp only [build, Declarations.resolveAll, Declarations.resolutionOrder,
    DepthFirst.order_eq_workFor]
  decide +kernel

end Model

end SchemaQuery

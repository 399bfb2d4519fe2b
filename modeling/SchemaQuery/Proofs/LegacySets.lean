import SchemaQuery.Proofs.BuiltModel
import SchemaQuery.Proofs.ResolvedMixins

/-!
Sets as lists. A set is the older spelling of a list, so declarations in which every set is spelt as
a list are built to the same model, with lists in place of the sets.
-/

namespace SchemaQuery

def AggregateType.asList : AggregateType → AggregateType
  | set => list
  | type => type

/-- A list in place of a set; other types stay as they are. -/
def ShapeType.asList : ShapeType → ShapeType
  | .aggregate type => .aggregate type.asList
  | type => type

namespace DeclaredContent

def asList : DeclaredContent → DeclaredContent
  | .aggregate type members => .aggregate type.asList members
  | content => content

@[simp] theorem type_asList (content : DeclaredContent) :
    content.asList.type = content.type.asList := by
  cases content <;> rfl

end DeclaredContent

namespace Declaration

def asList (d : Declaration) : Declaration :=
  { d with content := d.content.asList }

variable (d : Declaration)

@[simp] theorem id_asList : d.asList.id = d.id := rfl

@[simp] theorem traits_asList : d.asList.traits = d.traits := rfl

@[simp] theorem mixins_asList : d.asList.mixins = d.mixins := rfl

@[simp] theorem misuse_asList : d.asList.misuse = d.misuse := rfl

@[simp] theorem type_asList : d.asList.type = d.type.asList :=
  d.content.type_asList

@[simp] theorem members_asList : d.asList.members = d.members := by
  unfold members asList
  cases d.content <;> rfl

theorem asList_eq_self {d : Declaration} (h : d.type ≠ .aggregate .set) : d.asList = d := by
  obtain ⟨id, content, traits, mixins, misuse⟩ := d
  cases content with
  | aggregate type members =>
      cases type with
      | set => exact absurd rfl h
      | list | map | «structure» | union => rfl
  | simple | member | service | resource | operation => rfl

end Declaration

namespace Content

def asList : Content → Content
  | .aggregate type members => .aggregate type.asList members
  | content => content

@[simp] theorem type_asList (content : Content) : content.asList.type = content.type.asList := by
  cases content <;> rfl

end Content

namespace Shape

def asList (shape : Shape) : Shape :=
  { shape with content := shape.content.asList }

variable (shape : Shape)

@[simp] theorem id_asList : shape.asList.id = shape.id := rfl

@[simp] theorem traits_asList : shape.asList.traits = shape.traits := rfl

@[simp] theorem trait?_asList (trait : ShapeId) : shape.asList.trait? trait = shape.trait? trait :=
  rfl

@[simp] theorem hasTrait_asList (trait : ShapeId) :
    shape.asList.hasTrait trait = shape.hasTrait trait := rfl

@[simp] theorem type_asList : shape.asList.type = shape.type.asList :=
  shape.content.type_asList

@[simp] theorem members_asList : shape.asList.members = shape.members := by
  unfold members asList
  cases shape.content <;> rfl

@[simp] theorem asService?_asList : shape.asList.asService? = shape.asService? := by
  unfold asService? asList
  cases shape.content <;> rfl

@[simp] theorem asResource?_asList : shape.asList.asResource? = shape.asResource? := by
  unfold asResource? asList
  cases shape.content <;> rfl

@[simp] theorem asOperation?_asList : shape.asList.asOperation? = shape.asOperation? := by
  unfold asOperation? asList
  cases shape.content <;> rfl

@[simp] theorem relationships_asList : shape.asList.relationships = shape.relationships := by
  unfold relationships references asList
  cases shape.content <;> rfl

end Shape

@[simp] theorem Member.asList_toShape (m : Member) : m.toShape.asList = m.toShape := rfl

def Declarations.asList (declared : Declarations) : Declarations :=
  Sorted.relabel Declaration.asList (fun _ => rfl) declared

def asLists (shapes : Sorted Shape.id) : Sorted Shape.id :=
  shapes.relabel Shape.asList fun _ => rfl

@[simp] theorem entries_asLists (shapes : Sorted Shape.id) :
    (asLists shapes).entries = shapes.entries.map Shape.asList := rfl

@[simp] theorem contains_asLists (shapes : Sorted Shape.id) (id : ShapeId) :
    (asLists shapes).contains id = shapes.contains id :=
  Sorted.contains_relabel shapes id

theorem find?_asLists (shapes : Sorted Shape.id) (id : ShapeId) :
    (asLists shapes).find? id = (shapes.find? id).map Shape.asList :=
  Sorted.find?_relabel shapes id

def Model.asList (m : Model) : Model :=
  ⟨asLists m.shapes, .ofShapes (asLists m.shapes)⟩

namespace EffectiveTraits

@[simp] theorem inherited_map_asList (shape : ShapeId) (traits : Traits) (mixins : List Shape) :
    inherited shape traits (mixins.map Shape.asList) = inherited shape traits mixins := by
  induction mixins generalizing traits with
  | nil => rfl
  | cons mixin rest ih =>
      simp only [List.map_cons, inherited, ih]
      rfl

@[simp] theorem of_asList (d : Declaration) (mixins : List Shape) :
    of d.asList (mixins.map Shape.asList) = of d mixins := by
  simp [of]

end EffectiveTraits

namespace EffectiveMember

@[simp] theorem inheritFrom_map_asList (policy : ConflictPolicy) (shape : ShapeId)
    (effective : List EffectiveMember) (mixins : List Shape) :
    inheritFrom policy shape effective (mixins.map Shape.asList) =
      inheritFrom policy shape effective mixins := by
  induction mixins generalizing effective with
  | nil => rfl
  | cons mixin rest ih => simp [inheritFrom, ih]

@[simp] theorem all_asList (policy : ConflictPolicy) (d : Declaration) (mixins : List Shape) :
    all policy d.asList (mixins.map Shape.asList) = all policy d mixins := by
  simp [all]

theorem checkNames_asList {d : Declaration} {members : List EffectiveMember}
    (h : checkNames d members = .ok ()) : checkNames d.asList members = .ok () := by
  by_cases hset : d.type = .aggregate .set
  · unfold checkNames at h ⊢
    unfold Declaration.type at hset
    cases hcontent : d.content <;> rw [hcontent] at hset <;> cases hset
    simp only [hcontent, AggregateType.fixedMembers] at h
    simp only [Declaration.asList, hcontent, DeclaredContent.asList, AggregateType.asList,
      AggregateType.fixedMembers]
    split at h
    · next heq => rw [if_pos heq]
    · cases h
  · rwa [Declaration.asList_eq_self hset]

end EffectiveMember

namespace Declaration

variable {policy : ConflictPolicy} {d : Declaration} {mixins : List Shape} {shape : Shape}

theorem resolveContent_asList (members : List EffectiveMember) :
    d.asList.resolveContent (mixins.map Shape.asList) members =
      (d.resolveContent mixins members).map Content.asList := by
  have hfilterMap {α : Type} {f : Shape → Option α} (hf : ∀ shape, f shape.asList = f shape) :
      (mixins.map Shape.asList).filterMap f = mixins.filterMap f := by
    simp [List.filterMap_map, hf]
  unfold resolveContent
  cases hcontent : d.content with
  | aggregate type declared =>
      simp only [asList, hcontent, DeclaredContent.asList]
      cases EffectiveMember.freeze d.id members <;> rfl
  | simple | member =>
      simp only [asList, hcontent, DeclaredContent.asList]
      rfl
  | service | resource | operation =>
      simp only [asList, hcontent, DeclaredContent.asList, hfilterMap Shape.asService?_asList,
        hfilterMap Shape.asResource?_asList, hfilterMap Shape.asOperation?_asList]
      rfl

theorem resolve_asList (h : d.resolve policy mixins = .ok shape) :
    d.asList.resolve policy (mixins.map Shape.asList) = .ok shape.asList := by
  obtain ⟨members, htraits, hmembers, hnames, hcontent, hid, hmixins⟩ := resolve_eq_ok_iff.mp h
  apply resolve_eq_ok_iff.mpr
  refine ⟨members, ?_, ?_, EffectiveMember.checkNames_asList hnames, ?_, hid, hmixins⟩
  · rw [EffectiveTraits.of_asList, htraits, Shape.traits_asList]
  · rw [EffectiveMember.all_asList, hmembers]
  · rw [resolveContent_asList, hcontent]
    rfl

theorem mixinsIn_asList (d : Declaration) (shapes : List Shape) :
    d.asList.mixinsIn (shapes.map Shape.asList) = (d.mixinsIn shapes).map Shape.asList := by
  simp only [mixinsIn, mixins_asList, List.find?_map, List.map_filterMap]
  rfl

end Declaration

namespace Declarations

variable {policy : ConflictPolicy} {declared : Declarations}

@[simp] theorem entries_asList (declared : Declarations) :
    declared.asList.entries = declared.entries.map Declaration.asList := rfl

@[simp] theorem keys_asList (declared : Declarations) : declared.asList.keys = declared.keys :=
  Sorted.keys_relabel declared

theorem find?_asList (declared : Declarations) (id : ShapeId) :
    declared.asList.find? id = (declared.find? id).map Declaration.asList :=
  Sorted.find?_relabel declared id

@[simp] theorem dependents_asList (declared : Declarations) :
    declared.asList.dependents = declared.dependents := by
  funext id
  simp only [dependents, entries_asList, List.filter_map, List.map_map]
  rfl

@[simp] theorem mixinsOf_asList (declared : Declarations) :
    declared.asList.mixinsOf = declared.mixinsOf := by
  funext id
  unfold mixinsOf
  rw [find?_asList]
  cases declared.find? id <;> rfl

@[simp] theorem misplaced?_asList (declared : Declarations) (before order : List ShapeId) :
    declared.asList.misplaced? before order = declared.misplaced? before order := by
  induction order generalizing before with
  | nil => rfl
  | cons id rest ih => simp only [misplaced?, mixinsOf_asList, ih]

theorem checkMixins_asList (h : ∀ d ∈ declared.entries, declared.checkMixins d = .ok ()) :
    ∀ d ∈ declared.asList.entries, declared.asList.checkMixins d = .ok () := by
  intro changed hchanged
  obtain ⟨d, hd, rfl⟩ := List.mem_map.mp hchanged
  apply forM_eq_ok_iff.mpr
  intro mixin hmixin
  obtain ⟨hne, found, hfind, hmarked, htype⟩ :=
    checkMixin_eq_ok_iff.mp (forM_eq_ok_iff.mp (h d hd) mixin hmixin)
  apply checkMixin_eq_ok_iff.mpr
  exact ⟨hne, found.asList, by rw [find?_asList, hfind, Option.map_some], hmarked, by simp [htype]⟩

theorem resolutionOrder_asList {order : List ShapeId} (h : declared.resolutionOrder = .ok order) :
    declared.asList.resolutionOrder = .ok order := by
  have hchecked := checkMixins_of_resolutionOrder h
  rw [resolutionOrder_of_checked hchecked] at h
  rw [resolutionOrder_of_checked (checkMixins_asList hchecked), ← h]
  simp only [searchOrder, keys_asList, dependents_asList, misplaced?_asList]

theorem resolveInOrder_asList {order : List ShapeId} {resolved shapes : List Shape}
    (h : declared.resolveInOrder policy resolved order = .ok shapes) :
    declared.asList.resolveInOrder policy (resolved.map Shape.asList) order =
      .ok (shapes.map Shape.asList) := by
  induction order generalizing resolved with
  | nil =>
      cases h
      rfl
  | cons id rest ih =>
      unfold resolveInOrder at h ⊢
      rw [find?_asList]
      cases hfind : declared.find? id with
      | none =>
          rw [hfind] at h
          exact ih h
      | some d =>
          rw [hfind] at h
          dsimp only [Option.map_some] at h ⊢
          split at h
          · cases h
          next shape hshape =>
          -- the mixins are found among what has been resolved, where they are lists by now
          have hresolve := Declaration.resolve_asList hshape
          have hmixins := d.mixinsIn_asList resolved
          unfold Declaration.mixinsIn at hmixins
          rw [hmixins, hresolve]
          simpa using ih h

theorem resolveAll_asList {shapes : List Shape} (h : declared.resolveAll policy = .ok shapes) :
    declared.asList.resolveAll policy = .ok (shapes.map Shape.asList) := by
  unfold resolveAll at h ⊢
  split at h
  · cases h
  next order horder =>
  rw [resolutionOrder_asList horder]
  exact resolveInOrder_asList h

end Declarations

namespace Model

variable {m : Model} {config : ModelConfig} {declarations : List Declaration}

theorem collect_asList (declared : Declarations) (declarations : List Declaration) :
    collect declared.asList (declarations.map Declaration.asList) =
      (collect declared declarations).map Declarations.asList := by
  induction declarations generalizing declared with
  | nil => rfl
  | cons d rest ih =>
      have hinsert : declared.asList.insert d.asList = Declarations.asList (declared.insert d) :=
        Sorted.insert_relabel d declared
      have hcontains : declared.asList.contains d.id = declared.contains d.id :=
        Sorted.contains_relabel declared d.id
      simp only [List.map_cons, collect, Declaration.misuse_asList, Declaration.id_asList,
        hcontains, hinsert, ih]
      split
      · rfl
      split
      · rfl
      split <;> rfl

theorem withPrelude_asList (config : ModelConfig) (declarations : List Declaration) :
    withPrelude config (declarations.map Declaration.asList) =
      (withPrelude config declarations).map Declaration.asList := by
  have hprelude : ∀ d ∈ Prelude.declarations, d.asList = id d := by
    intro d hd
    apply Declaration.asList_eq_self
    revert d
    decide +kernel
  unfold withPrelude
  split
  · rw [List.map_append, List.map_congr_left hprelude, List.map_id]
  · rfl

theorem addShape_asList (shapes : Sorted Shape.id) (shape : Shape) :
    addShape (asLists shapes) shape.asList = (addShape shapes shape).map asLists := by
  have hinsert : (asLists shapes).insert shape.asList = asLists (shapes.insert shape) :=
    Sorted.insert_relabel shape shapes
  simp only [addShape, Shape.id_asList, contains_asLists, hinsert]
  split <;> rfl

theorem addMembers_asList (container : ShapeId) (shapes : Sorted Shape.id) (members : List Member) :
    addMembers container (asLists shapes) members =
      (addMembers container shapes members).map asLists := by
  induction members generalizing shapes with
  | nil => rfl
  | cons m rest ih =>
      have hadd := addShape_asList shapes m.toShape
      rw [Member.asList_toShape] at hadd
      simp only [addMembers, hadd]
      split
      · rfl
      cases addShape shapes m.toShape with
      | error e => rfl
      | ok added => exact ih added

theorem addAll_asList (shapes : Sorted Shape.id) (new : List Shape) :
    addAll (asLists shapes) (new.map Shape.asList) = (addAll shapes new).map asLists := by
  induction new generalizing shapes with
  | nil => rfl
  | cons shape rest ih =>
      simp only [List.map_cons, addAll, Shape.id_asList, Shape.members_asList, addMembers_asList]
      cases addMembers shape.id shapes shape.members with
      | error e => rfl
      | ok withMembers =>
          simp only [Except.map, addShape_asList]
          cases addShape withMembers shape with
          | error e => rfl
          | ok added => exact ih added

theorem ofShapes_asList {shapes : List Shape} (h : ofShapes shapes = .ok m) :
    ofShapes (shapes.map Shape.asList) = .ok m.asList := by
  apply ofShapes_eq_ok_iff.mpr
  refine ⟨?_, rfl⟩
  have hadd := addAll_asList ∅ shapes
  rw [(ofShapes_eq_ok_iff.mp h).1] at hadd
  exact hadd

theorem find?_asList (m : Model) (id : ShapeId) :
    m.asList.find? id = (m.find? id).map Shape.asList :=
  find?_asLists m.shapes id

@[simp] theorem entries_asList (m : Model) :
    m.asList.shapes.entries = m.shapes.entries.map Shape.asList := rfl

theorem checkTraits_asList (m : Model) : m.asList.checkTraits = m.checkTraits := by
  have hcheck : m.asList.checkTrait = m.checkTrait := by
    funext shape trait
    unfold checkTrait
    rw [find?_asList]
    cases m.find? trait <;> rfl
  simp [checkTraits, hcheck, List.forM_map]

theorem build_asList (h : build config declarations = .ok m) :
    build config (declarations.map Declaration.asList) = .ok m.asList := by
  obtain ⟨declared, shapes, hcollect, hresolve, hshapes, hcheck⟩ := build_eq_ok_iff.mp h
  apply build_eq_ok_iff.mpr
  refine ⟨declared.asList, shapes.map Shape.asList, ?_, Declarations.resolveAll_asList hresolve,
    ofShapes_asList hshapes, ?_⟩
  · have hcollect' := collect_asList ∅ (withPrelude config declarations)
    rw [hcollect, ← withPrelude_asList] at hcollect'
    exact hcollect'
  · rwa [checkTraits_asList]

end Model

end SchemaQuery

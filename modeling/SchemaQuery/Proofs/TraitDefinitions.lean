import SchemaQuery.Proofs.BuiltModel
import SchemaQuery.Proofs.DepthFirst
import SchemaQuery.Proofs.Indexes

namespace SchemaQuery.Model

variable {m : Model}

/-- A trait is defined by a shape of the model that is marked as a trait. -/
def DefinesTrait (m : Model) (trait : ShapeId) : Prop :=
  ∃ definition, m.find? trait = some definition ∧ definition.hasTrait .traitMarker = true

/-- The first trait in the order of the shapes, and in id order on one shape, that a shape carries
although it is not defined. -/
structure FirstUndefined (m : Model) (shape : Shape) (trait : ShapeId) : Prop where
  mem : shape ∈ m.shapes.entries
  carried : shape.hasTrait trait = true
  undefined : ¬ m.DefinesTrait trait
  first : ∀ other ∈ m.shapes.entries, ∀ t, other.hasTrait t = true → ¬ m.DefinesTrait t →
    ((compare shape.id other.id).then (compare trait t)).isLE = true

theorem checkTrait_eq_ok_iff {shape trait : ShapeId} :
    m.checkTrait shape trait = .ok () ↔ m.DefinesTrait trait := by
  unfold checkTrait DefinesTrait
  cases m.find? trait with
  | none => simp
  | some definition => by_cases h : definition.hasTrait .traitMarker <;> simp [h]

theorem eq_of_checkTrait_eq_error {shape trait : ShapeId} {e : ModelError}
    (h : m.checkTrait shape trait = .error e) :
    m.find? trait = none ∧ e = .unknownTrait shape trait ∨
      m.find? trait ≠ none ∧ e = .notATraitDefinition shape trait := by
  unfold checkTrait at h
  cases hfind : m.find? trait with
  | none => simp_all
  | some definition => by_cases hmarked : definition.hasTrait .traitMarker <;> simp_all

theorem forM_checkTrait_eq_ok_iff {shape : Shape} :
    shape.traits.ids.forM (m.checkTrait shape.id) = .ok () ↔
      ∀ trait, shape.hasTrait trait = true → m.DefinesTrait trait := by
  simp only [forM_eq_ok_iff, checkTrait_eq_ok_iff, Shape.hasTrait, Traits.contains_iff_mem_ids]

theorem checkTraits_eq_ok_iff :
    m.checkTraits = .ok () ↔
      ∀ shape ∈ m.shapes.entries, ∀ trait, shape.hasTrait trait = true → m.DefinesTrait trait := by
  rw [checkTraits, forM_eq_ok_iff]
  simp only [forM_checkTrait_eq_ok_iff]

theorem exists_firstUndefined {e : ModelError} (h : m.checkTraits = .error e) :
    ∃ shape trait, m.FirstUndefined shape trait ∧ m.checkTrait shape.id trait = .error e := by
  obtain ⟨shape, hshape, hcheck, hshapes⟩ := exists_first_of_forM_eq_error m.shapes.ordered h
  obtain ⟨trait, htrait, hfails, htraits⟩ :=
    exists_first_of_forM_eq_error shape.traits.byId.pairwise_keys hcheck
  refine ⟨shape, trait, ⟨hshape, Traits.contains_iff_mem_ids.mpr htrait, ?_, ?_⟩, hfails⟩
  · intro hdefined
    rw [checkTrait_eq_ok_iff.mpr hdefined] at hfails
    contradiction
  · intro other hother t ht hundefined
    have hne : other.traits.ids.forM (m.checkTrait other.id) ≠ .ok () := by
      intro hok
      exact hundefined (forM_checkTrait_eq_ok_iff.mp hok t ht)
    rcases hshapes other hother hne with rfl | hlt
    · have hself (id : ShapeId) : compare id id = .eq := Std.ReflOrd.compare_self
      rw [hself]
      rcases htraits t (Traits.contains_iff_mem_ids.mp ht) (mt checkTrait_eq_ok_iff.mp hundefined)
        with rfl | hlt
      · rw [hself]
        rfl
      · rw [hlt]
        rfl
    · have hlt : compare shape.id other.id = .lt := hlt
      rw [hlt]
      rfl

theorem build_requiring_eq (config : ModelConfig) (declarations : List Declaration) :
    build { config with requireTraitDefinitions := true } declarations =
      match build { config with requireTraitDefinitions := false } declarations with
      | .error e => .error e
      | .ok m => m.checkTraits.map fun () => m := by
  simp only [build, withPrelude]
  cases collect ∅ (if config.includePrelude = true then declarations ++ Prelude.declarations
      else declarations) with
  | error e => rfl
  | ok declared =>
      dsimp only
      cases declared.resolveAll config.conflicts with
      | error e => rfl
      | ok shapes =>
          dsimp only
          cases ofShapes shapes with
          | error e => rfl
          | ok m => rfl

/-- If the definitions of traits are required, exactly those models are built that define all traits
that they apply, and they are the same models. Otherwise the reason is the first trait that is not
defined: there is no such shape, or it is no definition of a trait. -/
theorem build_requiring_definitions (config : ModelConfig) (declarations : List Declaration) :
    (∀ m, build { config with requireTraitDefinitions := true } declarations = .ok m ↔
      build { config with requireTraitDefinitions := false } declarations = .ok m ∧
        ∀ shape ∈ m.shapes.entries, ∀ trait, shape.hasTrait trait = true → m.DefinesTrait trait) ∧
    (∀ e, build { config with requireTraitDefinitions := false } declarations = .error e →
      build { config with requireTraitDefinitions := true } declarations = .error e) ∧
    ∀ m e, build { config with requireTraitDefinitions := false } declarations = .ok m →
      build { config with requireTraitDefinitions := true } declarations = .error e →
      ∃ shape trait, m.FirstUndefined shape trait ∧
        (m.find? trait = none ∧ e = .unknownTrait shape.id trait ∨
          m.find? trait ≠ none ∧ e = .notATraitDefinition shape.id trait) := by
  rw [build_requiring_eq]
  cases build { config with requireTraitDefinitions := false } declarations with
  | error e => simp
  | ok built =>
      refine ⟨?_, by simp, ?_⟩
      · intro m
        simp only [map_eq_ok_iff, Except.ok.injEq]
        constructor
        · rintro ⟨_, hcheck, rfl⟩
          exact ⟨rfl, checkTraits_eq_ok_iff.mp hcheck⟩
        · rintro ⟨rfl, hdefined⟩
          exact ⟨(), checkTraits_eq_ok_iff.mpr hdefined, rfl⟩
      · rintro m e ⟨⟩ hfails
        have hcheck : built.checkTraits = .error e := by
          cases hcheck : built.checkTraits <;> simp_all [Except.map]
        obtain ⟨shape, trait, hfirst, hfails⟩ := exists_firstUndefined hcheck
        exact ⟨shape, trait, hfirst, eq_of_checkTrait_eq_error hfails⟩

def selfMarked : List Declaration :=
  [(Declaration.structure .traitMarker).annotate .traitMarker]

def unmarked : List Declaration :=
  [(Declaration.string ⟨"a", "U", none⟩).annotate ⟨"a", "Gone", none⟩,
    (Declaration.structure ⟨"a", "S", none⟩).add
      (.member "x" ⟨"a", "T", none⟩ [.mark ⟨"a", "T", none⟩]),
    .string ⟨"a", "T", none⟩]

theorem build_requiring_definitions_selfMarked_unmarked :
    (∃ m, build ⟨.error, true, false⟩ selfMarked = .ok m ∧
      build ⟨.error, false, false⟩ selfMarked = .ok m ∧
      ∀ shape ∈ m.shapes.entries, ∀ trait, shape.hasTrait trait = true → m.DefinesTrait trait) ∧
    (∃ m, build ⟨.error, false, false⟩ unmarked = .ok m ∧
      build ⟨.error, true, false⟩ unmarked =
        .error (.notATraitDefinition ⟨"a", "S", some "x"⟩ ⟨"a", "T", none⟩) ∧
      ∃ shape trait, m.FirstUndefined shape trait ∧ shape.id = ⟨"a", "S", some "x"⟩ ∧
        trait = ⟨"a", "T", none⟩) := by
  obtain ⟨hiff, -, -⟩ := build_requiring_definitions ⟨.error, false, false⟩ selfMarked
  obtain ⟨-, -, hfirst⟩ := build_requiring_definitions ⟨.error, false, false⟩ unmarked
  have hbuilds : (build ⟨.error, true, false⟩ selfMarked).isOk = true := by
    simp only [build, Declarations.resolveAll, Declarations.resolutionOrder,
      DepthFirst.order_eq_workFor]
    decide +kernel
  have hallows : (build ⟨.error, false, false⟩ unmarked).isOk = true := by
    simp only [build, Declarations.resolveAll, Declarations.resolutionOrder,
      DepthFirst.order_eq_workFor]
    decide +kernel
  have hfails : build ⟨.error, true, false⟩ unmarked =
      .error (.notATraitDefinition ⟨"a", "S", some "x"⟩ ⟨"a", "T", none⟩) := by
    simp only [build, Declarations.resolveAll, Declarations.resolutionOrder,
      DepthFirst.order_eq_workFor]
    rfl
  obtain ⟨m, hbuild⟩ := exists_eq_ok_of_isOk hbuilds
  obtain ⟨built, hbuilt⟩ := exists_eq_ok_of_isOk hallows
  refine ⟨⟨m, hbuild, (hiff m).mp hbuild⟩, built, hbuilt, hfails, ?_⟩
  obtain ⟨shape, trait, hundefined, hor⟩ := hfirst built _ hbuilt hfails
  refine ⟨shape, trait, hundefined, ?_⟩
  rcases hor with ⟨-, heq⟩ | ⟨-, heq⟩
  · contradiction
  · simp only [ModelError.notATraitDefinition.injEq] at heq
    exact ⟨heq.1.symm, heq.2.symm⟩

end SchemaQuery.Model

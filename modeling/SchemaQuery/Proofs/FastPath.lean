import Mathlib.Data.List.Nodup
import SchemaQuery.Proofs.BuiltModel
import SchemaQuery.Proofs.DepthFirst
import SchemaQuery.Proofs.Outcomes
import SchemaQuery.Proofs.TraitLookup
import SchemaQuery.Selector.Search

namespace SchemaQuery

open Std

/-- The indexes of a model are those of its shapes, and the ids of these are well-formed. -/
structure Model.Sound (m : Model) : Prop where
  index : m.index = .ofShapes m.shapes
  wellFormed : ∀ shape ∈ m.shapes.entries, shape.id.WellFormed

theorem Model.sound_of_build {config : ModelConfig} {declarations : List Declaration} {m : Model}
    (h : build config declarations = .ok m) (hids : ∀ d ∈ declarations, d.id.WellFormed) :
    m.Sound :=
  ⟨index_of_build h, fun _ hshape => wellFormed_of_build h hids hshape⟩

/-- A list of ids in id order that has, of the shapes of a model, those that pass a test. -/
structure FindsExactly (m : Model) (ids : List ShapeId) (test : Shape → Bool) : Prop where
  ordered : ids.Pairwise fun a b => compare a b = .lt
  mem_iff : ∀ shape ∈ m.shapes.entries, shape.id ∈ ids ↔ test shape = true

theorem FindsExactly.shapesAt_eq {m : Model} {ids : List ShapeId} {test : Shape → Bool}
    (h : FindsExactly m ids test) : m.shapesAt ids = m.shapes.entries.filter test := by
  rw [Model.shapesAt_eq_filter h.ordered]
  apply List.filter_congr
  intro shape hshape
  rw [Bool.eq_iff_iff, decide_eq_true_eq]
  exact h.mem_iff shape hshape

theorem Model.id_mem_map_filter {m : Model} {test : Shape → Bool} {shape : Shape}
    (hshape : shape ∈ m.shapes.entries) :
    shape.id ∈ (m.shapes.entries.filter test).map Shape.id ↔ test shape = true := by
  rw [id_mem_map_id_iff (fun _ hmem => List.mem_of_mem_filter hmem) hshape, List.mem_filter]
  exact and_iff_right hshape

theorem Model.findsExactly_map_filter (m : Model) (test : Shape → Bool) :
    FindsExactly m ((m.shapes.entries.filter test).map Shape.id) test where
  ordered := List.pairwise_map.mpr (m.shapes.ordered.filter test)
  mem_iff _ hshape := id_mem_map_filter hshape

theorem pairwise_mergeSort_ids {ids : List ShapeId} (h : ids.Nodup) :
    (ids.mergeSort fun a b => (compare a b).isLE).Pairwise fun a b => compare a b = .lt := by
  have hsorted : (ids.mergeSort fun a b => (compare a b).isLE).Pairwise
      fun a b => (compare a b).isLE = true := by
    apply List.pairwise_mergeSort
    · intro a b c hab hbc
      exact TransCmp.isLE_trans hab hbc
    · intro a b
      rw [Bool.or_eq_true, ← OrientedCmp.isGE_iff_isLE (a := a)]
      cases compare a b <;> simp
  have hnodup := (List.mergeSort_perm ids fun a b => (compare a b).isLE).nodup_iff.mpr h
  refine (hsorted.and (List.nodup_iff_pairwise_ne.mp hnodup)).imp ?_
  rintro a b ⟨hle, hne⟩
  cases hcompare : compare a b with
  | lt => rfl
  | eq => exact absurd (LawfulEqCmp.eq_of_compare hcompare) hne
  | gt => simp [hcompare] at hle

theorem ShapeType.nodup_all : ShapeType.all.Nodup := by
  decide

variable {m : Model}

theorem nodup_flatMap_shapesOfType (hindex : m.index = .ofShapes m.shapes) (types : List ShapeType)
    (htypes : types.Nodup) : (types.flatMap m.index.shapesOfType).Nodup := by
  rw [List.nodup_flatMap, hindex]
  constructor
  · intro type _
    rw [Index.shapesOfType_ofShapes]
    exact (m.shapes.nodup_keys.sublist (List.filter_sublist.map _))
  · refine htypes.imp fun {type₁ type₂} hne id hid₁ hid₂ => ?_
    rw [Index.shapesOfType_ofShapes, List.mem_map] at hid₁ hid₂
    obtain ⟨shape₁, hshape₁, rfl⟩ := hid₁
    obtain ⟨shape₂, hshape₂, hid⟩ := hid₂
    rw [List.mem_filter, decide_eq_true_eq] at hshape₁ hshape₂
    have hshape := Sorted.eq_of_key_eq hshape₂.1 hshape₁.1 hid
    exact hne (hshape₁.2.symm.trans (hshape ▸ hshape₂.2))

theorem TypeFilter.fastPath_findsExactly (hindex : m.index = .ofShapes m.shapes)
    {filter : TypeFilter} {ids : List ShapeId} (h : filter.fastPath? m = some ids) :
    FindsExactly m ids fun shape => filter.accepts shape.type := by
  have hids : ids = ((ShapeType.all.filter filter.accepts).flatMap
      m.index.shapesOfType).mergeSort fun a b => (compare a b).isLE := by
    cases filter <;> cases h <;> rfl
  subst hids
  constructor
  · exact pairwise_mergeSort_ids
      (nodup_flatMap_shapesOfType hindex _ (ShapeType.nodup_all.filter _))
  · intro shape hshape
    simp only [List.mem_mergeSort, List.mem_flatMap, List.mem_filter, hindex,
      Index.shapesOfType_ofShapes, Model.id_mem_map_filter hshape, decide_eq_true_eq]
    constructor
    · rintro ⟨type, ⟨-, haccepts⟩, rfl⟩
      exact haccepts
    · intro haccepts
      exact ⟨shape.type, ⟨ShapeType.mem_all _, haccepts⟩, rfl⟩

theorem AttributeFilter.test_trait (trait : ShapeId) (shape : Shape) :
    AttributeFilter.test ⟨.trait trait [], none⟩ shape = shape.hasTrait trait := by
  rw [Shape.hasTrait_eq_isSome]
  simp only [test, AttributeKey.values]
  cases shape.trait? trait <;> rfl

theorem AttributeFilter.test_id (texts : List String) (shape : Shape) :
    AttributeFilter.test ⟨.id, some ⟨.equal, texts, false⟩⟩ shape = true ↔
      shape.id.text ∈ texts := by
  simp [test, Comparison.test, AttributeKey.values, AttributeValue.text?, Comparator.holds,
    String.toList_inj]

theorem AttributeFilter.mem_idsIn (hm : m.Sound) {texts : List String} {shape : Shape}
    (hshape : shape ∈ m.shapes.entries) :
    shape.id ∈ (idsIn m texts).entries ↔ shape.id.text ∈ texts := by
  have hcontains : m.contains shape.id = true := Model.contains_iff.mpr ⟨shape, hshape, rfl⟩
  have hparse (text : String) :
      (ShapeId.parse text).toOption = some shape.id ↔ shape.id.text = text := by
    rw [toOption_eq_some_iff, ShapeId.parse_eq_ok_iff, and_iff_right (hm.wellFormed shape hshape)]
  simp only [idsIn, SortedSet.mem_ofList, List.mem_filter, List.mem_filterMap, hparse, hcontains,
    and_true, exists_eq_right']

theorem AttributeFilter.fastPath_findsExactly (hm : m.Sound) {filter : AttributeFilter}
    {ids : List ShapeId} (h : filter.fastPath? m = some ids) : FindsExactly m ids filter.test := by
  unfold fastPath? at h
  split at h
  · next trait =>
    cases h
    rw [hm.index, Index.shapesWithTrait_ofShapes, funext (test_trait trait)]
    exact m.findsExactly_map_filter _
  · next texts =>
    cases h
    refine ⟨(idsIn m texts).ordered, ?_⟩
    intro shape hshape
    rw [mem_idsIn hm hshape, test_id]
  · cases h

/-- A stage with a fast path is a filter, and its fast path finds what it passes. -/
theorem Stage.fastPath_findsExactly (hm : m.Sound) {stage : Stage} {ids : List ShapeId}
    (h : stage.fastPath? m = some ids) :
    ∃ test, stage.flow m = .filter (fun _ shape => test shape) ∧ FindsExactly m ids test := by
  unfold fastPath? at h
  split at h
  · next filter => exact ⟨_, rfl, filter.fastPath_findsExactly hm.index h⟩
  · next filter => exact ⟨_, rfl, filter.fastPath_findsExactly hm h⟩
  · cases h

theorem Search.tryPipeline_optimize_eq (hm : m.Sound) (limit : Option Nat) (pipeline : Pipeline)
    (record : Bool := true) :
    (fun found => tryPipeline m true .model limit pipeline found record) =
      fun found => tryPipeline m false .model limit pipeline found record := by
  funext found
  cases hfast : pipeline.fastPath? m with
  | none => simp only [tryPipeline, starts, hfast]
  | some ids =>
      cases pipeline with
      | nil => cases hfast
      | cons stage rest =>
          obtain ⟨test, hflow, hfinds⟩ := Stage.fastPath_findsExactly hm hfast
          simp only [tryPipeline, starts, hfast, hfinds.shapesAt_eq]
          apply feed_filter
          intro shape hfails s
          simp only [pipelineFlow, Flow.andThen, hflow, Flow.filter, hfails, Bool.false_eq_true,
            if_false]

/-- Looking candidates up changes nothing about the matches of a search: neither which shapes match,
nor their order, nor what is bound, whatever the limit. -/
theorem search_optimize_eq {config : ModelConfig} {declarations : List Declaration}
    (hbuild : Model.build config declarations = .ok m)
    (hids : ∀ d ∈ declarations, d.id.WellFormed) (selector : Selector) (limit : Option Nat) :
    Search.run m ⟨true, limit⟩ selector .model = Search.run m ⟨false, limit⟩ selector .model := by
  have hm := Model.sound_of_build hbuild hids
  have htry : Search.tryPipeline m true .model limit = Search.tryPipeline m false .model limit :=
    funext fun pipeline => Search.tryPipeline_optimize_eq hm limit pipeline
  simp only [Search.run, htry]

def oneMember : List Declaration :=
  [(Declaration.structure ⟨"a", "S", none⟩).withMember "m" ⟨"a", "T", none⟩,
    .string ⟨"a", "T", none⟩]

theorem search_optimize_eq_oneMember :
    ∃ m, Model.build ⟨.error, false, false⟩ oneMember = .ok m ∧
      (∀ d ∈ oneMember, d.id.WellFormed) ∧
      Search.run m ⟨true, some 2⟩
          [[.type (.exact (.aggregate .structure)), .neighbor ⟨.forward, none⟩, .bind "x"],
            [.attribute ⟨.id, some ⟨.equal, ["a#T", "a#S"], false⟩⟩]] .model =
        Search.run m ⟨false, some 2⟩
          [[.type (.exact (.aggregate .structure)), .neighbor ⟨.forward, none⟩, .bind "x"],
            [.attribute ⟨.id, some ⟨.equal, ["a#T", "a#S"], false⟩⟩]] .model := by
  have hbuilds : (Model.build ⟨.error, false, false⟩ oneMember).isOk = true := by
    simp only [Model.build, Declarations.resolveAll, Declarations.resolutionOrder,
      DepthFirst.order_eq_workFor]
    decide +kernel
  have hids : ∀ d ∈ oneMember, d.id.WellFormed := by decide
  cases hbuild : Model.build ⟨.error, false, false⟩ oneMember with
  | error e =>
      rw [hbuild] at hbuilds
      cases hbuilds
  | ok m => exact ⟨m, rfl, hids, search_optimize_eq hbuild hids _ _⟩

section Scan

theorem Model.contains_of_mem_map_filter {test : Shape → Bool} {id : ShapeId}
    (h : id ∈ (m.shapes.entries.filter test).map Shape.id) : m.contains id = true := by
  obtain ⟨shape, hshape, rfl⟩ := List.mem_map.mp h
  exact contains_iff.mpr ⟨shape, List.mem_of_mem_filter hshape, rfl⟩

theorem TypeFilter.contains_of_fastPath? (hindex : m.index = .ofShapes m.shapes)
    {filter : TypeFilter} {ids : List ShapeId} (h : filter.fastPath? m = some ids) :
    ∀ id ∈ ids, m.contains id = true := by
  intro id hid
  cases filter <;> cases h <;>
  · rw [List.mem_mergeSort, List.mem_flatMap] at hid
    obtain ⟨type, -, hid⟩ := hid
    rw [hindex, Index.shapesOfType_ofShapes] at hid
    exact Model.contains_of_mem_map_filter hid

theorem AttributeFilter.contains_of_fastPath? (hindex : m.index = .ofShapes m.shapes)
    {filter : AttributeFilter} {ids : List ShapeId} (h : filter.fastPath? m = some ids) :
    ∀ id ∈ ids, m.contains id = true := by
  intro id hid
  unfold fastPath? at h
  split at h
  · cases h
    rw [hindex, Index.shapesWithTrait_ofShapes] at hid
    exact Model.contains_of_mem_map_filter hid
  · cases h
    rw [idsIn, SortedSet.mem_ofList, List.mem_filter] at hid
    exact hid.2
  · cases h

theorem Stage.contains_of_fastPath? (hindex : m.index = .ofShapes m.shapes) {stage : Stage}
    {ids : List ShapeId} (h : stage.fastPath? m = some ids) : ∀ id ∈ ids, m.contains id = true := by
  unfold fastPath? at h
  split at h
  · exact TypeFilter.contains_of_fastPath? hindex h
  · exact AttributeFilter.contains_of_fastPath? hindex h
  · cases h

theorem Flow.flatMap_handed_filter (test : Shape → Bool) (shapes : List Shape) :
    shapes.flatMap ((Flow.filter fun _ shape => test shape).handed ∅) =
      (shapes.filter test).map fun shape => ⟨∅, shape⟩ := by
  induction shapes with
  | nil => rfl
  | cons shape rest ih =>
      rw [List.flatMap_cons, ih, (Delivers.filter _).handed_eq, List.filter_cons]
      split <;> rfl

theorem FindsExactly.map_id_eq {ids : List ShapeId} {test : Shape → Bool}
    (h : FindsExactly m ids test) (hids : ∀ id ∈ ids, m.contains id = true) :
    (m.shapes.entries.filter test).map Shape.id = ids := by
  rw [← h.shapesAt_eq, Model.map_id_shapesAt, List.filter_eq_self.mpr hids]

/-- The fast path of a stage finds ids of the model, in strictly increasing order, namely those of
what the stage yields when it is tried on every shape without bindings. All type filters but the one
that passes everything have a fast path, and so do a bare trait and the ids equal to given texts. -/
theorem Stage.fastPath_eq_scan {config : ModelConfig} {declarations : List Declaration}
    (hbuild : Model.build config declarations = .ok m)
    (hids : ∀ shape ∈ m.shapes.entries, shape.id.WellFormed) :
    (∀ (stage : Stage) ids, stage.fastPath? m = some ids →
      ids.Pairwise (fun a b => compare a b = .lt) ∧
      (∀ id ∈ ids, m.contains id = true) ∧
      (m.shapes.entries.flatMap ((stage.flow m).handed ∅)).map (·.shape.id) = ids) ∧
    (∀ filter, filter ≠ .any → ((Stage.type filter).fastPath? m).isSome = true) ∧
    (∀ trait, ((Stage.attribute ⟨.trait trait [], none⟩).fastPath? m).isSome = true) ∧
    ∀ texts, ((Stage.attribute ⟨.id, some ⟨.equal, texts, false⟩⟩).fastPath? m).isSome = true := by
  have hindex := Model.index_of_build hbuild
  refine ⟨?_, ?_, fun _ => rfl, fun _ => rfl⟩
  · intro stage ids h
    obtain ⟨test, hflow, hfinds⟩ := fastPath_findsExactly ⟨hindex, hids⟩ h
    have hcontains := contains_of_fastPath? hindex h
    refine ⟨hfinds.ordered, hcontains, ?_⟩
    rw [hflow, Flow.flatMap_handed_filter, List.map_map]
    exact hfinds.map_id_eq hcontains
  · intro filter hfilter
    cases filter with
    | any => exact absurd rfl hfilter
    | exact | number | simpleType | collection => rfl

def listAndSet : List Declaration :=
  [.set ⟨"a", "U", none⟩ ⟨"a", "T", none⟩, .list ⟨"a", "L", none⟩ ⟨"a", "T", none⟩,
    (Declaration.string ⟨"a", "T", none⟩).add (.trait ⟨⟨"a", "note", none⟩, .null⟩)]

def lookedUp : List Stage :=
  [.type (.exact (.aggregate .list)), .attribute ⟨.trait ⟨"a", "note", none⟩ [], none⟩,
    .attribute ⟨.id, some ⟨.equal, ["a#T", "T", "a#L$", "a#T", "a#Gone", "a#L"], false⟩⟩]

theorem Stage.fastPath_eq_scan_listAndSet :
    ∃ m, Model.build ⟨.error, false, false⟩ listAndSet = .ok m ∧
      (∀ shape ∈ m.shapes.entries, shape.id.WellFormed) ∧
      lookedUp.map (fun stage => stage.fastPath? m) =
        [some [⟨"a", "L", none⟩, ⟨"a", "U", none⟩], some [⟨"a", "T", none⟩],
          some [⟨"a", "L", none⟩, ⟨"a", "T", none⟩]] := by
  have hcollect : Model.collect ∅ listAndSet = .ok (.ofList listAndSet) := by decide +kernel
  have horder : Declarations.resolutionOrder (.ofList listAndSet) =
      .ok [⟨"a", "U", none⟩, ⟨"a", "T", none⟩, ⟨"a", "L", none⟩] := by
    simp only [Declarations.resolutionOrder, DepthFirst.order_eq_workFor]
    decide +kernel
  have hscan : ((Declarations.resolveInOrder .error (.ofList listAndSet) []
      [⟨"a", "U", none⟩, ⟨"a", "T", none⟩, ⟨"a", "L", none⟩]).bind Model.ofShapes).map (fun m =>
        lookedUp.map fun stage =>
          (m.shapes.entries.flatMap ((stage.flow m).handed ∅)).map (·.shape.id)) =
      .ok [[⟨"a", "L", none⟩, ⟨"a", "U", none⟩], [⟨"a", "T", none⟩],
        [⟨"a", "L", none⟩, ⟨"a", "T", none⟩]] := by decide +kernel
  obtain ⟨m, hm, hscan⟩ := map_eq_ok_iff.mp hscan
  have hbuild : Model.build ⟨.error, false, false⟩ listAndSet = .ok m :=
    Model.build_of_resolutionOrder hcollect horder hm rfl
  have hdeclared : ∀ d ∈ listAndSet, d.id.WellFormed := by decide
  have hids : ∀ shape ∈ m.shapes.entries, shape.id.WellFormed :=
    fun _ hshape => Model.wellFormed_of_build hbuild hdeclared hshape
  obtain ⟨hexact, htypes, htraits, htexts⟩ := fastPath_eq_scan hbuild hids
  have hsome : ∀ stage ∈ lookedUp, (Stage.fastPath? stage m).isSome = true := by
    refine List.forall_mem_cons.mpr ⟨htypes _ (by decide), List.forall_mem_cons.mpr ⟨htraits _, ?_⟩⟩
    exact List.forall_mem_singleton.mpr (htexts _)
  refine ⟨m, hbuild, hids, Eq.trans ?_ (congrArg (List.map some) hscan)⟩
  rw [List.map_map]
  apply List.map_congr_left
  intro stage hstage
  obtain ⟨ids, hpath⟩ := Option.isSome_iff_exists.mp (hsome stage hstage)
  rw [hpath, Function.comp_apply, (hexact stage ids hpath).2.2]

end Scan

end SchemaQuery

import SchemaQuery.Proofs.Discovery

namespace SchemaQuery

def Pipeline.LeadsTo (m : Model) (pipeline : Pipeline) (start found : Shape) : Prop :=
  found ∈ (pipelineOutcomes m ∅ start pipeline).map Outcome.shape

theorem Pipeline.LeadsTo.mem_entries {m : Model} {pipeline : Pipeline} {start found : Shape}
    (h : pipeline.LeadsTo m start found) (hstart : start ∈ m.shapes.entries) :
    found ∈ m.shapes.entries := by
  obtain ⟨o, ho, rfl⟩ := List.mem_map.mp h
  exact pipeline.staysIn m ∅ start hstart o ho

/-- A stage that yields nothing but the shape itself, with nothing more bound. -/
def Stage.IsFilter : Stage → Prop
  | .type _ | .attribute _ => True
  | .function kind _ => kind = .not ∨ kind = .test ∨ kind = .in
  | .neighbor _ | .capture _ _ | .bind _ | .get _ => False

section Filters

variable {m : Model} {bindings : Bindings} {shape : Shape}

theorem Stage.IsFilter.eq_of_mem_outcomes {stage : Stage} (h : stage.IsFilter) {o : Outcome}
    (ho : o ∈ stage.outcomes m bindings shape) : o = ⟨bindings, shape⟩ := by
  have hfilter {p : Prop} [Decidable p] (ho : o ∈ if p then [⟨bindings, shape⟩] else []) :
      o = ⟨bindings, shape⟩ := by
    split at ho
    · exact List.mem_singleton.mp ho
    · exact absurd ho List.not_mem_nil
  cases stage with
  | type | «attribute» => exact hfilter ho
  | function kind args =>
      rcases h with rfl | rfl | rfl
      · exact hfilter ho
      · refine hfilter (p := ¬(argumentOutcomes m bindings shape args).isEmpty) ?_
        rwa [ite_not]
      · exact hfilter ho
  | neighbor | capture | bind | get => cases h

theorem eq_of_mem_pipelineOutcomes {pipeline : Pipeline} (h : ∀ stage ∈ pipeline, stage.IsFilter)
    {o : Outcome} (ho : o ∈ pipelineOutcomes m bindings shape pipeline) :
    o = ⟨bindings, shape⟩ := by
  induction pipeline with
  | nil => exact List.mem_singleton.mp ho
  | cons stage rest ih =>
      obtain ⟨hstage, hrest⟩ := List.forall_mem_cons.mp h
      obtain ⟨middle, hmiddle, ho⟩ := List.mem_flatMap.mp ho
      obtain rfl := hstage.eq_of_mem_outcomes hmiddle
      exact ih hrest ho

theorem Pipeline.LeadsTo.eq_of_isFilter {pipeline : Pipeline}
    (h : ∀ stage ∈ pipeline, stage.IsFilter) {start found : Shape}
    (hleads : pipeline.LeadsTo m start found) : found = start := by
  obtain ⟨o, ho, rfl⟩ := List.mem_map.mp hleads
  rw [eq_of_mem_pipelineOutcomes h ho]

end Filters

namespace Search

variable {m : Model}

/-- Whether a search scans, looks up or is given its candidates makes no difference, if they are the
same shapes. -/
theorem run_congr (hm : m.Sound) {first second : Candidates}
    (h : first.shapes m = second.shapes m) (optimize₁ optimize₂ : Bool) (limit : Option Nat)
    (selector : Selector) (record : Bool) :
    run m ⟨optimize₁, limit⟩ selector first record =
      run m ⟨optimize₂, limit⟩ selector second record := by
  by_cases hlimit : limit = some 0
  · simp only [run, if_pos hlimit]
  · rw [run_eq_feed hm optimize₁ hlimit, run_eq_feed hm optimize₂ hlimit, discovered, discovered, h]

theorem ordered_map_shape_run (config : SelectorConfig) (selector : Selector)
    (candidates : Candidates) (record : Bool) :
    ((run m config selector candidates record).map Match.shape).Pairwise
      (Sorted.Precedes Shape.id) :=
  List.pairwise_map.mpr (ordered_run config selector candidates)

theorem mem_map_shape_run_iff_leadsTo (hm : m.Sound) {optimize record : Bool} {selector : Selector}
    {candidates : Candidates} {found : Shape} :
    found ∈ (run m ⟨optimize, none⟩ selector candidates record).map Match.shape ↔
      ∃ pipeline ∈ selector, ∃ start ∈ candidates.shapes m, pipeline.LeadsTo m start found := by
  rw [mem_map_shape_run_iff hm, within, List.mem_eraseDups, List.mem_map]
  simp only [mem_discovered, Pipeline.LeadsTo, List.mem_map]
  constructor
  · rintro ⟨o, ⟨pipeline, hpipeline, start, hstart, ho⟩, rfl⟩
    exact ⟨pipeline, hpipeline, start, hstart, o, ho, rfl⟩
  · rintro ⟨pipeline, hpipeline, start, hstart, o, ho, rfl⟩
    exact ⟨o, ⟨pipeline, hpipeline, start, hstart, ho⟩, rfl⟩

end Search

namespace Selector

variable {m : Model} {selector : Selector} {found : Shape}

theorem mem_selectWith_iff (hm : m.Sound) {optimize : Bool} :
    found ∈ selector.selectWith m ⟨optimize, none⟩ ↔
      ∃ pipeline ∈ selector, ∃ start ∈ m.shapes.entries, pipeline.LeadsTo m start found :=
  Search.mem_map_shape_run_iff_leadsTo hm

theorem mem_selectFrom_iff (hm : m.Sound) {ids : List ShapeId} :
    found ∈ selector.selectFrom m ids ↔
      ∃ pipeline ∈ selector, ∃ start ∈ m.shapes.entries,
        start.id ∈ ids ∧ pipeline.LeadsTo m start found := by
  refine (Search.mem_map_shape_run_iff_leadsTo hm).trans ?_
  simp only [Candidates.shapes, List.mem_filter, decide_eq_true_eq, and_assoc]

theorem selectFrom_congr (hm : m.Sound) (selector : Selector) {A B : List ShapeId}
    (h : ∀ id, m.contains id = true → (id ∈ A ↔ id ∈ B)) :
    selector.selectFrom m A = selector.selectFrom m B := by
  have hshapes : (Candidates.scoped A).shapes m = (Candidates.scoped B).shapes m := by
    apply List.filter_congr
    intro shape hshape
    rw [decide_eq_decide]
    exact h shape.id (Model.contains_iff.mpr ⟨shape, hshape, rfl⟩)
  exact congrArg (List.map Match.shape) (Search.run_congr hm hshapes true true none selector false)

theorem selectFrom_ids (hm : m.Sound) (selector : Selector) (optimize : Bool) :
    selector.selectFrom m m.ids = selector.selectWith m ⟨optimize, none⟩ := by
  have hshapes : (Candidates.scoped m.ids).shapes m = Candidates.model.shapes m := by
    apply List.filter_eq_self.mpr
    intro shape hshape
    exact decide_eq_true (List.mem_map_of_mem hshape)
  exact congrArg (List.map Match.shape)
    (Search.run_congr hm hshapes true optimize none selector false)

end Selector

theorem Query.accepts_iff {query : Query} {m : Model} {shape : Shape} :
    query.accepts m shape = true ↔ ∃ found ∈ query.selectFrom m [shape.id], found.id = shape.id := by
  rw [accepts, List.any_eq_true]
  simp only [decide_eq_true_eq]

/-- The results of a scoped search are the union of the results from each of its ids. They depend
only on which of these are in the model, and with all of them, they are the results of the search in
the whole model. What a query accepts is thus among its results, and the results of a query that
only filters are what it accepts. -/
theorem selectFrom_union {config : ModelConfig} {declarations : List Declaration} {m : Model}
    (hbuild : Model.build config declarations = .ok m)
    (hids : ∀ d ∈ declarations, d.id.WellFormed) (query : Query) :
    (∀ A B found, found ∈ query.selectFrom m (A ++ B) ↔
      found ∈ query.selectFrom m A ∨ found ∈ query.selectFrom m B) ∧
    (∀ A B, (∀ id, m.contains id = true → (id ∈ A ↔ id ∈ B)) →
      query.selectFrom m A = query.selectFrom m B) ∧
    (∀ optimize, query.selectFrom m m.ids = query.selectWith m ⟨optimize, none⟩) ∧
    (∀ A, query.selectFrom m A ⊆ query.select m) ∧
    (∀ A B, A ⊆ B → query.selectFrom m A ⊆ query.selectFrom m B) ∧
    (∀ shape, query.accepts m shape = true → ∃ found ∈ query.select m, found.id = shape.id) ∧
    (∀ found ∈ query.select m, m.find? found.id = some found) ∧
    ((∀ pipeline ∈ query.selector, ∀ stage ∈ pipeline, stage.IsFilter) →
      ∀ shape, query.accepts m shape = true ↔ ∃ found ∈ query.select m, found.id = shape.id) := by
  have hm := Model.sound_of_build hbuild hids
  have hsubset : ∀ A, query.selectFrom m A ⊆ query.select m := by
    intro A found hfound
    obtain ⟨pipeline, hpipeline, start, hstart, -, hleads⟩ :=
      (Selector.mem_selectFrom_iff hm).mp hfound
    exact (Selector.mem_selectWith_iff hm).mpr ⟨pipeline, hpipeline, start, hstart, hleads⟩
  have haccepts : ∀ shape, query.accepts m shape = true →
      ∃ found ∈ query.select m, found.id = shape.id := by
    intro shape haccepts
    obtain ⟨found, hfound, hid⟩ := Query.accepts_iff.mp haccepts
    exact ⟨found, hsubset _ hfound, hid⟩
  refine ⟨?_, ?_, ?_, hsubset, ?_, haccepts, ?_, ?_⟩
  · intro A B found
    simp only [Query.selectFrom, Selector.mem_selectFrom_iff hm, List.mem_append, or_and_right,
      and_or_left, exists_or]
  · exact fun A B => Selector.selectFrom_congr hm query.selector
  · exact Selector.selectFrom_ids hm query.selector
  · intro A B hAB found hfound
    obtain ⟨pipeline, hpipeline, start, hstart, hid, hleads⟩ :=
      (Selector.mem_selectFrom_iff hm).mp hfound
    exact (Selector.mem_selectFrom_iff hm).mpr
      ⟨pipeline, hpipeline, start, hstart, hAB hid, hleads⟩
  · intro found hfound
    obtain ⟨pipeline, -, start, hstart, hleads⟩ := (Selector.mem_selectWith_iff hm).mp hfound
    exact Model.find?_eq_some_iff.mpr ⟨hleads.mem_entries hstart, rfl⟩
  · intro hfilters shape
    refine ⟨haccepts shape, ?_⟩
    rintro ⟨found, hfound, hid⟩
    obtain ⟨pipeline, hpipeline, start, hstart, hleads⟩ :=
      (Selector.mem_selectWith_iff hm).mp hfound
    -- A filter leads nowhere but to the shape that it starts from.
    obtain rfl := hleads.eq_of_isFilter (hfilters pipeline hpipeline)
    refine Query.accepts_iff.mpr ⟨found, (Selector.mem_selectFrom_iff hm).mpr ?_, hid⟩
    exact ⟨pipeline, hpipeline, found, hstart, List.mem_singleton.mpr hid, hleads⟩

def Query.leadingStructures : Query :=
  ⟨"structure :test(> *)", [[.type (.exact (.aggregate .structure)),
    .function .test [[[.neighbor ⟨.forward, none⟩, .type .any]]]]]⟩

theorem selectFrom_union_oneMember :
    ∃ m, Model.build ⟨.error, false, false⟩ oneMember = .ok m ∧
      (∀ d ∈ oneMember, d.id.WellFormed) ∧
      Query.leadingStructures.selectFrom m [⟨"a", "T", none⟩, ⟨"a", "Gone", none⟩] =
        Query.leadingStructures.selectFrom m [⟨"a", "T", none⟩] ∧
      (∀ pipeline ∈ Query.leadingStructures.selector, ∀ stage ∈ pipeline, stage.IsFilter) ∧
      (∀ shape, Query.leadingStructures.accepts m shape = true ↔
        ∃ found ∈ Query.leadingStructures.select m, found.id = shape.id) ∧
      (Query.leadingStructures.select m).map (·.id.text) = ["a#S"] := by
  have hfound : (Model.build ⟨.error, false, false⟩ oneMember).map (fun m =>
      (m.contains ⟨"a", "Gone", none⟩, (Query.leadingStructures.select m).map (·.id.text))) =
        .ok (false, ["a#S"]) := by
    simp only [Model.build, Declarations.resolveAll, Declarations.resolutionOrder,
      DepthFirst.order_eq_workFor]
    decide +kernel
  obtain ⟨m, hbuild, hfound⟩ := map_eq_ok_iff.mp hfound
  obtain ⟨hgone, hselect⟩ := Prod.mk.inj hfound
  have hids : ∀ d ∈ oneMember, d.id.WellFormed := by decide
  have hfilters : ∀ pipeline ∈ Query.leadingStructures.selector, ∀ stage ∈ pipeline,
      stage.IsFilter := by
    simp [Query.leadingStructures, Stage.IsFilter]
  obtain ⟨-, hcongr, -, -, -, -, -, haccepts⟩ :=
    selectFrom_union hbuild hids Query.leadingStructures
  refine ⟨m, hbuild, hids, hcongr _ _ ?_, hfilters, haccepts hfilters, hselect⟩
  intro id hid
  have hne : id ≠ ⟨"a", "Gone", none⟩ := by
    rintro rfl
    rw [hgone] at hid
    cases hid
  simp [hne]

end SchemaQuery

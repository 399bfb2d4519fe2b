import SchemaQuery.Proofs.FreeVariables
import SchemaQuery.Proofs.ScopedSearch

namespace SchemaQuery

namespace Pipeline

def select (pipeline : Pipeline) (m : Model) (optimize : Bool) : List Shape :=
  Selector.selectWith [pipeline] m ⟨optimize, none⟩

/-- All the shapes to which a pipeline leads from some shapes. -/
def selectFrom (pipeline : Pipeline) (m : Model) (starts : List Shape) : List Shape :=
  Selector.selectFrom [pipeline] m (starts.map Shape.id)

/-- Whatever is bound, stages lead from a shape of the model to those which it is related to. -/
def ActsAs (m : Model) (pipeline : Pipeline) (R : Shape → Shape → Prop) : Prop :=
  ∀ bindings, ∀ shape ∈ m.shapes.entries, ∀ found,
    found ∈ (pipelineOutcomes m bindings shape pipeline).map Outcome.shape ↔ R shape found

variable {m : Model} {optimize : Bool} {pipeline : Pipeline} {found : Shape}

theorem mem_select_iff (hm : m.Sound) :
    found ∈ pipeline.select m optimize ↔
      ∃ start ∈ m.shapes.entries, pipeline.LeadsTo m start found := by
  refine (Selector.mem_selectWith_iff hm).trans ?_
  simp only [List.mem_singleton, exists_eq_left]

theorem mem_entries_of_mem_select (hm : m.Sound) {shape : Shape}
    (h : shape ∈ pipeline.select m optimize) : shape ∈ m.shapes.entries := by
  obtain ⟨start, hstart, hleads⟩ := (mem_select_iff hm).mp h
  exact hleads.mem_entries hstart

theorem mem_selectFrom_iff (hm : m.Sound) {starts : List Shape}
    (hstarts : ∀ start ∈ starts, start ∈ m.shapes.entries) :
    found ∈ pipeline.selectFrom m starts ↔ ∃ start ∈ starts, pipeline.LeadsTo m start found := by
  refine (Selector.mem_selectFrom_iff hm).trans ?_
  simp only [List.mem_singleton, exists_eq_left]
  constructor
  · rintro ⟨start, hstart, hid, hleads⟩
    exact ⟨start, (Model.id_mem_map_id_iff hstarts hstart).mp hid, hleads⟩
  · rintro ⟨start, hstart, hleads⟩
    exact ⟨start, hstarts start hstart, List.mem_map_of_mem hstart, hleads⟩

theorem mem_selectFrom_singleton_iff (hm : m.Sound) {start : Shape}
    (hstart : start ∈ m.shapes.entries) :
    found ∈ pipeline.selectFrom m [start] ↔ pipeline.LeadsTo m start found := by
  rw [mem_selectFrom_iff hm (List.forall_mem_singleton.mpr hstart)]
  simp only [List.mem_singleton, exists_eq_left]

theorem selectFrom_singleton_ne_nil_iff (hm : m.Sound) {start : Shape}
    (hstart : start ∈ m.shapes.entries) :
    pipeline.selectFrom m [start] ≠ [] ↔ ∃ found, pipeline.LeadsTo m start found := by
  rw [ne_eq, List.eq_nil_iff_forall_not_mem, not_forall_not]
  simp only [mem_selectFrom_singleton_iff hm hstart]

theorem ActsAs.mem_select_append_iff {after : Pipeline} {R : Shape → Shape → Prop}
    (h : after.ActsAs m R) (hm : m.Sound) :
    found ∈ (pipeline ++ after).select m optimize ↔
      ∃ middle ∈ pipeline.select m optimize, R middle found := by
  simp only [mem_select_iff hm, LeadsTo, pipelineOutcomes_append, List.map_flatMap,
    List.mem_flatMap]
  constructor
  · rintro ⟨start, hstart, o, ho, hfound⟩
    have hmiddle : o.shape ∈ m.shapes.entries := pipeline.staysIn m ∅ start hstart o ho
    exact ⟨o.shape, ⟨start, hstart, List.mem_map_of_mem ho⟩, (h _ _ hmiddle found).mp hfound⟩
  · rintro ⟨middle, ⟨start, hstart, hleads⟩, hR⟩
    obtain ⟨o, ho, rfl⟩ := List.mem_map.mp hleads
    have hmiddle : o.shape ∈ m.shapes.entries := pipeline.staysIn m ∅ start hstart o ho
    exact ⟨start, hstart, o, ho, (h _ _ hmiddle found).mpr hR⟩

theorem ordered_select (pipeline : Pipeline) (m : Model) (optimize : Bool) :
    (pipeline.select m optimize).Pairwise (Sorted.Precedes Shape.id) :=
  Search.ordered_map_shape_run ⟨optimize, none⟩ [pipeline] .model false

theorem ordered_selectFrom (pipeline : Pipeline) (m : Model) (starts : List Shape) :
    (pipeline.selectFrom m starts).Pairwise (Sorted.Precedes Shape.id) :=
  Search.ordered_map_shape_run default [pipeline] (.scoped (starts.map Shape.id)) false

theorem ActsAs.select_append_eq {after : Pipeline} {R : Shape → Shape → Prop}
    (h : after.ActsAs m R) (hm : m.Sound) {results : List Shape}
    (hordered : results.Pairwise (Sorted.Precedes Shape.id))
    (hresults : ∀ found, found ∈ results ↔
      ∃ middle ∈ pipeline.select m optimize, R middle found) :
    (pipeline ++ after).select m optimize = results := by
  refine Sorted.eq_of_mem_iff_of_pairwise (ordered_select _ m optimize) hordered fun found => ?_
  rw [h.mem_select_append_iff hm, hresults]

theorem ActsAs.select_append_eq_selectFrom {after next : Pipeline}
    (h : after.ActsAs m (next.LeadsTo m)) (hm : m.Sound) :
    (pipeline ++ after).select m optimize = next.selectFrom m (pipeline.select m optimize) :=
  h.select_append_eq hm (ordered_selectFrom next m _) fun _ =>
    mem_selectFrom_iff hm fun _ hstart => mem_entries_of_mem_select hm hstart

theorem ActsAs.select_append_eq_filter {after : Pipeline} {test : Shape → Prop}
    [DecidablePred test] (h : after.ActsAs m fun shape found => found = shape ∧ test shape)
    (hm : m.Sound) :
    (pipeline ++ after).select m optimize = (pipeline.select m optimize).filter test := by
  refine h.select_append_eq hm ((ordered_select pipeline m optimize).filter _) fun found => ?_
  rw [List.mem_filter, decide_eq_true_eq]
  constructor
  · rintro ⟨hfound, htest⟩
    exact ⟨found, hfound, rfl, htest⟩
  · rintro ⟨_, hfound, rfl, htest⟩
    exact ⟨hfound, htest⟩

end Pipeline

section Stages

variable {m : Model} {bindings : Bindings} {shape found : Shape} {pipelines : List Pipeline}

theorem Pipeline.Closed.actsAs {pipeline : Pipeline} (h : pipeline.Closed) :
    pipeline.ActsAs m (pipeline.LeadsTo m) := by
  intro bindings shape _ found
  rw [h.map_shape_eq m bindings ∅ shape]
  rfl

theorem mem_map_shape_argumentOutcomes_iff (h : ∀ pipeline ∈ pipelines, pipeline.Closed) :
    found ∈ (argumentOutcomes m bindings shape (pipelines.map fun pipeline => [pipeline])).map
        Outcome.shape ↔
      ∃ pipeline ∈ pipelines, pipeline.LeadsTo m shape found := by
  simp only [argumentOutcomes_eq_flatMap, List.flatMap_map, selectorOutcomes_singleton,
    List.map_flatMap, List.mem_flatMap]
  refine exists_congr fun pipeline => and_congr_right fun hpipeline => ?_
  rw [(h pipeline hpipeline).map_shape_eq m bindings ∅]
  rfl

theorem actsAs_is (h : ∀ pipeline ∈ pipelines, pipeline.Closed) :
    Pipeline.ActsAs m [.function .is (pipelines.map fun pipeline => [pipeline])]
      fun shape found => ∃ pipeline ∈ pipelines, pipeline.LeadsTo m shape found := by
  intro bindings shape _ found
  rw [pipelineOutcomes_singleton]
  exact mem_map_shape_argumentOutcomes_iff h

theorem isEmpty_argumentOutcomes_iff (hm : m.Sound)
    (h : ∀ pipeline ∈ pipelines, pipeline.Closed) (hshape : shape ∈ m.shapes.entries) :
    (argumentOutcomes m bindings shape (pipelines.map fun pipeline => [pipeline])).isEmpty = true ↔
      ¬∃ pipeline ∈ pipelines, pipeline.selectFrom m [shape] ≠ [] := by
  rw [← List.isEmpty_map (f := Outcome.shape), List.isEmpty_iff, List.eq_nil_iff_forall_not_mem]
  simp only [mem_map_shape_argumentOutcomes_iff h,
    Pipeline.selectFrom_singleton_ne_nil_iff hm hshape]
  constructor
  · rintro hnone ⟨pipeline, hpipeline, found, hleads⟩
    exact hnone found ⟨pipeline, hpipeline, hleads⟩
  · rintro hnone found ⟨pipeline, hpipeline, hleads⟩
    exact hnone ⟨pipeline, hpipeline, found, hleads⟩

theorem actsAs_filter {stage : Stage} {test : Shape → Prop} [DecidablePred test]
    (h : ∀ bindings, ∀ shape ∈ m.shapes.entries,
      stage.outcomes m bindings shape = if test shape then [⟨bindings, shape⟩] else []) :
    Pipeline.ActsAs m [stage] fun shape found => found = shape ∧ test shape := by
  intro bindings shape hshape found
  rw [pipelineOutcomes_singleton, h bindings shape hshape]
  split <;> simp [*]

theorem actsAs_test (hm : m.Sound) (h : ∀ pipeline ∈ pipelines, pipeline.Closed) :
    Pipeline.ActsAs m [.function .test (pipelines.map fun pipeline => [pipeline])]
      fun shape found => found = shape ∧
        ∃ pipeline ∈ pipelines, pipeline.selectFrom m [shape] ≠ [] := by
  refine actsAs_filter fun bindings shape hshape => ?_
  simp only [Stage.outcomes, isEmpty_argumentOutcomes_iff hm h hshape, ite_not]

theorem actsAs_not (hm : m.Sound) (h : ∀ pipeline ∈ pipelines, pipeline.Closed) :
    Pipeline.ActsAs m [.function .not (pipelines.map fun pipeline => [pipeline])]
      fun shape found => found = shape ∧
        ¬∃ pipeline ∈ pipelines, pipeline.selectFrom m [shape] ≠ [] := by
  refine actsAs_filter fun bindings shape hshape => ?_
  simp only [Stage.outcomes, isEmpty_argumentOutcomes_iff hm h hshape]

theorem id_mem_map_outcomes_iff {pipeline : Pipeline} (hshape : shape ∈ m.shapes.entries)
    (hfound : found ∈ m.shapes.entries) :
    found.id ∈ (pipelineOutcomes m bindings shape pipeline).map (·.shape.id) ↔
      found ∈ (pipelineOutcomes m bindings shape pipeline).map Outcome.shape := by
  rw [← Model.id_mem_map_id_iff ?_ hfound, List.map_map]
  · rfl
  · intro other hother
    obtain ⟨o, ho, rfl⟩ := List.mem_map.mp hother
    exact pipeline.staysIn m bindings shape hshape o ho

theorem actsAs_in (hm : m.Sound) {pipeline : Pipeline} (h : pipeline.Closed) :
    Pipeline.ActsAs m [.function .in [[pipeline]]]
      fun shape found => found = shape ∧ shape ∈ pipeline.selectFrom m [shape] := by
  refine actsAs_filter fun bindings shape hshape => ?_
  have htest : shape.id ∈ (pipelineOutcomes m bindings shape pipeline).map (·.shape.id) ↔
      shape ∈ pipeline.selectFrom m [shape] := by
    rw [id_mem_map_outcomes_iff hshape hshape, h.actsAs bindings shape hshape,
      Pipeline.mem_selectFrom_singleton_iff hm hshape]
  simp only [Stage.outcomes, argumentOutcomes_singleton, htest]

theorem actsAs_root (hm : m.Sound) (optimize : Bool) (pipeline : Pipeline) :
    Pipeline.ActsAs m [.function .root [[pipeline]]]
      fun _ found => found ∈ pipeline.select m optimize := by
  intro bindings shape _ found
  rw [pipelineOutcomes_singleton, Stage.outcomes, List.map_map, List.mem_map]
  simp only [argumentOutcomes_singleton, List.mem_filter, List.any_eq_true, decide_eq_true_eq,
    Pipeline.mem_select_iff hm]
  constructor
  · rintro ⟨_, ⟨hfound, start, hstart, hid⟩, rfl⟩
    exact ⟨start, hstart, (id_mem_map_outcomes_iff hstart hfound).mp hid⟩
  · rintro ⟨start, hstart, hleads⟩
    have hfound := hleads.mem_entries hstart
    exact ⟨found, ⟨hfound, start, hstart, (id_mem_map_outcomes_iff hstart hfound).mpr hleads⟩, rfl⟩

theorem actsAs_capture (name : String) (selector : Selector) :
    Pipeline.ActsAs m [.capture name selector] fun shape found => found = shape := by
  intro bindings shape _ found
  rw [pipelineOutcomes_singleton, Stage.outcomes]
  exact List.mem_singleton

theorem actsAs_capture_get (name : String) {pipeline : Pipeline} (h : pipeline.Closed) :
    Pipeline.ActsAs m [.capture name [pipeline], .get name] (pipeline.LeadsTo m) := by
  intro bindings shape hshape found
  have hget : found ∈ (pipelineOutcomes m bindings shape
      [.capture name [pipeline], .get name]).map Outcome.shape ↔
        found ∈ m.shapes.entries ∧
          found.id ∈ (pipelineOutcomes m bindings shape pipeline).map (·.shape.id) := by
    simp [pipelineOutcomes, Stage.outcomes, Bindings.shapesOf_bind, selectorOutcomes_singleton,
      Model.mem_shapesAt]
  rw [hget]
  constructor
  · rintro ⟨hfound, hid⟩
    exact (h.actsAs bindings shape hshape found).mp ((id_mem_map_outcomes_iff hshape hfound).mp hid)
  · intro hleads
    have hfound := hleads.mem_entries hshape
    exact ⟨hfound, (id_mem_map_outcomes_iff hshape hfound).mpr
      ((h.actsAs bindings shape hshape found).mpr hleads)⟩

end Stages

/-- What a pipeline selects is composed from what its parts do. With a closed pipeline after it, it
selects what that one leads to from its results. Functions of closed pipelines unite what these lead
to, or tell the results apart by it, and `:root` puts what its argument selects in the place of
results. A capture makes no difference to the results, and its variable leads where it does. -/
theorem select_compositional {config : ModelConfig} {declarations : List Declaration} {m : Model}
    (hbuild : Model.build config declarations = .ok m)
    (hids : ∀ d ∈ declarations, d.id.WellFormed) (optimize : Bool) (p q : Pipeline)
    (qs : List Pipeline) (name : String) (hq : q.Closed) (hqs : ∀ q ∈ qs, q.Closed) :
    (p ++ q).select m optimize = q.selectFrom m (p.select m optimize) ∧
    (∀ found, found ∈ (p ++ [Stage.function .is (qs.map fun q => [q])]).select m optimize ↔
      ∃ q ∈ qs, found ∈ q.selectFrom m (p.select m optimize)) ∧
    (p ++ [Stage.function .test (qs.map fun q => [q])]).select m optimize =
      (p.select m optimize).filter (fun x => ∃ q ∈ qs, q.selectFrom m [x] ≠ []) ∧
    (p ++ [Stage.function .not (qs.map fun q => [q])]).select m optimize =
      (p.select m optimize).filter (fun x => ¬∃ q ∈ qs, q.selectFrom m [x] ≠ []) ∧
    (p ++ [Stage.function .in [[q]]]).select m optimize =
      (p.select m optimize).filter (fun x => x ∈ q.selectFrom m [x]) ∧
    (p ++ [Stage.function .root [[q]]]).select m optimize =
      (if p.select m optimize = [] then [] else q.select m optimize) ∧
    (p ++ [Stage.capture name [q]]).select m optimize = p.select m optimize ∧
    (p ++ [Stage.capture name [q], .get name]).select m optimize =
      q.selectFrom m (p.select m optimize) ∧
    ∀ found, found ∈ Selector.selectWith [p, q] m ⟨optimize, none⟩ ↔
      found ∈ p.select m optimize ∨ found ∈ q.select m optimize := by
  have hm := Model.sound_of_build hbuild hids
  have hentries : ∀ shape ∈ p.select m optimize, shape ∈ m.shapes.entries :=
    fun shape hshape => Pipeline.mem_entries_of_mem_select hm hshape
  refine ⟨hq.actsAs.select_append_eq_selectFrom hm, ?_,
    (actsAs_test hm hqs).select_append_eq_filter hm,
    (actsAs_not hm hqs).select_append_eq_filter hm,
    (actsAs_in hm hq).select_append_eq_filter hm, ?_, ?_,
    (actsAs_capture_get name hq).select_append_eq_selectFrom hm, ?_⟩
  · intro found
    simp only [(actsAs_is hqs).mem_select_append_iff hm, Pipeline.mem_selectFrom_iff hm hentries]
    constructor
    · rintro ⟨middle, hmiddle, q, hq, hleads⟩
      exact ⟨q, hq, middle, hmiddle, hleads⟩
    · rintro ⟨q, hq, middle, hmiddle, hleads⟩
      exact ⟨middle, hmiddle, q, hq, hleads⟩
  · refine (actsAs_root hm optimize q).select_append_eq hm ?_ fun found => ?_
    · split
      · exact .nil
      · exact Pipeline.ordered_select q m optimize
    · split
      · next hnone => simp [hnone]
      · next hsome =>
        obtain ⟨middle, hmiddle⟩ := List.exists_mem_of_ne_nil _ hsome
        exact ⟨fun hfound => ⟨middle, hmiddle, hfound⟩, fun ⟨_, _, hfound⟩ => hfound⟩
  · refine (actsAs_capture name [q]).select_append_eq hm (Pipeline.ordered_select p m optimize) ?_
    intro found
    rw [exists_eq_right']
  · intro found
    simp only [Selector.mem_selectWith_iff hm, Pipeline.mem_select_iff hm, List.mem_cons,
      List.not_mem_nil, or_false, exists_eq_or_imp, exists_eq_left]

def Pipeline.ahead : Pipeline :=
  [.bind "x", .neighbor ⟨.forward, none⟩]

def Pipeline.thereAndBack : Pipeline :=
  [.bind "x", .neighbor ⟨.forward, none⟩, .get "x"]

theorem select_compositional_oneMember :
    ∃ m, Model.build ⟨.error, false, false⟩ oneMember = .ok m ∧
      (∀ d ∈ oneMember, d.id.WellFormed) ∧ Pipeline.thereAndBack.Closed ∧
      (Pipeline.ahead ++ Pipeline.thereAndBack).select m true =
        Pipeline.thereAndBack.selectFrom m (Pipeline.ahead.select m true) ∧
      (Pipeline.ahead ++ [Stage.function .not [[Pipeline.thereAndBack]]]).select m true =
        (Pipeline.ahead.select m true).filter
          (fun x => ¬∃ q ∈ [Pipeline.thereAndBack], q.selectFrom m [x] ≠ []) ∧
      (Pipeline.ahead.select m true).map (·.id.text) = ["a#S$m", "a#T"] ∧
      ((Pipeline.ahead ++ Pipeline.thereAndBack).select m true).map (·.id.text) = ["a#S$m"] := by
  have hfound : (Model.build ⟨.error, false, false⟩ oneMember).map (fun m =>
      ((Pipeline.ahead.select m true).map (·.id.text),
        ((Pipeline.ahead ++ Pipeline.thereAndBack).select m true).map (·.id.text))) =
        .ok (["a#S$m", "a#T"], ["a#S$m"]) := by
    simp only [Model.build, Declarations.resolveAll, Declarations.resolutionOrder,
      DepthFirst.order_eq_workFor]
    decide +kernel
  obtain ⟨m, hbuild, hfound⟩ := map_eq_ok_iff.mp hfound
  obtain ⟨hahead, hback⟩ := Prod.mk.inj hfound
  have hids : ∀ d ∈ oneMember, d.id.WellFormed := by decide
  have hclosed : Pipeline.thereAndBack.Closed := by
    simp [Pipeline.Closed, Pipeline.thereAndBack, PipelineScoped, Stage.Scoped, Stage.ways]
  obtain ⟨happend, -, -, hnot, -⟩ := select_compositional hbuild hids true .ahead .thereAndBack
    [.thereAndBack] "x" hclosed (List.forall_mem_singleton.mpr hclosed)
  exact ⟨m, hbuild, hids, hclosed, happend, hnot, hahead, hback⟩

end SchemaQuery

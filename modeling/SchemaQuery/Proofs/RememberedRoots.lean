import Mathlib.Data.List.Forall2
import SchemaQuery.Proofs.FastPath
import SchemaQuery.Proofs.RootMemory

/-!
A `:root` hands on the same shapes wherever and whenever it is met in an evaluation. What is
remembered for it is all that it yields, so an evaluation with a memory does what one without does.
-/

namespace SchemaQuery

def Model.yieldedAnywhere (m : Model) (args : List Selector) : List Shape :=
  m.shapes.entries.filter fun found => m.shapes.entries.any fun start =>
    found.id ∈ (argumentOutcomes m ∅ start args).map (·.shape.id)

/-- Each set belongs to the `:root` at its place, and has all that this one yields. -/
def RootSets.Complete (roots : RootSets) (m : Model) (selector : Selector) : Prop :=
  ∀ place found, (place, found) ∈ roots → ∃ args,
    selector.stageAt? place = some (.function .root args) ∧
    found.entries = (m.yieldedAnywhere args).map Shape.id

/-- What is handed on is what the `:root` at this place yields, whatever is bound and from whichever
shape it is met. No set that is remembered by then is another stage's or lacks anything. -/
structure RootPush.Sound (push : RootPush) (m : Model) (selector : Selector) : Prop where
  offered : ∃ args, selector.stageAt? push.place = some (.function .root args) ∧
    push.offered = m.yieldedAnywhere args
  ordered : push.offered.Pairwise (Sorted.Precedes Shape.id)
  complete : push.roots.Complete m selector

structure Evaluation.Sound (m : Model) (selector : Selector) (e : Evaluation) : Prop where
  complete : e.roots.Complete m selector
  pushes : ∀ push ∈ e.pushes, push.Sound m selector

/-- A sound evaluation that goes on from an earlier point of it: what was remembered there still is,
and the log goes on. -/
structure Evaluation.Continues (m : Model) (selector : Selector) (before e : Evaluation) :
    Prop where
  sound : e.Sound m selector
  roots : before.roots <:+ e.roots
  pushes : before.pushes <+: e.pushes

def AnswersBeside {σ : Type} (inv : Evaluation → Prop) (answer : ForInStep (Evaluation × σ))
    (expected : ForInStep σ) : Prop :=
  ∃ e, inv e ∧ answer = mapAnswer (Prod.mk e) expected

/-- As long as the evaluation has a property, one sink answers as the other one does, and the
evaluation keeps the property. -/
def Sink.KeepsStep {σ : Type} (inv : Evaluation → Prop) (within : Sink (Evaluation × σ))
    (sink : Sink σ) : Prop :=
  ∀ bindings shape e s, inv e →
    AnswersBeside inv (within bindings shape (e, s)) (sink bindings shape s)

def MemoFlow.Delivers (inv : Evaluation → Prop) (flow : MemoFlow)
    (outcomes : Bindings → Shape → List Outcome) : Prop :=
  ∀ ⦃σ : Type⦄ (within : Sink (Evaluation × σ)) (sink : Sink σ), Sink.KeepsStep inv within sink →
    ∀ bindings shape e s, inv e →
      AnswersBeside inv (flow.run bindings shape within (e, s))
        (feed sink.take (outcomes bindings shape) s)

section Feeding

variable {α σ : Type} {inv : Evaluation → Prop}

theorem Sink.keepsStep_beside (sink : Sink σ) : Sink.KeepsStep inv sink.beside sink :=
  fun _ _ e _ he => ⟨e, he, rfl⟩

theorem AnswersBeside.feed {within : α → Evaluation × σ → ForInStep (Evaluation × σ)}
    {take : α → σ → ForInStep σ} {l : List α}
    (h : ∀ a ∈ l, ∀ e s, inv e → AnswersBeside inv (within a (e, s)) (take a s)) {e : Evaluation}
    (he : inv e) (s : σ) :
    AnswersBeside inv (SchemaQuery.feed within l (e, s)) (SchemaQuery.feed take l s) := by
  induction l generalizing e s with
  | nil => exact ⟨e, he, rfl⟩
  | cons a l ih =>
      obtain ⟨ha, hl⟩ := List.forall_mem_cons.mp h
      obtain ⟨e, he, heq⟩ := ha e s he
      rw [SchemaQuery.feed, SchemaQuery.feed, heq]
      cases take a s with
      | done s => exact ⟨e, he, rfl⟩
      | yield s => exact ih hl he s

theorem AnswersBeside.feed_zipIdx {within : α × Nat → Evaluation × σ → ForInStep (Evaluation × σ)}
    {take : α → σ → ForInStep σ} {l : List α}
    (h : ∀ x ∈ l.zipIdx, ∀ e s, inv e → AnswersBeside inv (within x (e, s)) (take x.1 s))
    {e : Evaluation} (he : inv e) (s : σ) :
    AnswersBeside inv (SchemaQuery.feed within l.zipIdx (e, s)) (SchemaQuery.feed take l s) := by
  have hmap := feed_map take Prod.fst l.zipIdx s
  rw [List.zipIdx_map_fst] at hmap
  rw [hmap]
  exact AnswersBeside.feed h he s

end Feeding

namespace MemoFlow

variable {inv : Evaluation → Prop} {m : Model} {flow first second : MemoFlow}
  {outcomes next : Bindings → Shape → List Outcome}

namespace Delivers

theorem ofFlow {plain : Flow} (h : plain.Delivers outcomes) :
    (MemoFlow.ofFlow plain).Delivers inv outcomes := by
  intro σ within sink hsink bindings shape e s he
  simp only [MemoFlow.ofFlow]
  rw [h]
  apply AnswersBeside.feed _ he
  intro o _ e s he
  exact hsink o.bindings o.shape e s he

theorem consult {α : Type} {ask : Bindings → Shape → Evaluation → Evaluation × α} {go : α → Flow}
    {answer : Bindings → Shape → α}
    (hask : ∀ bindings shape e, inv e →
      ∃ e', inv e' ∧ ask bindings shape e = (e', answer bindings shape))
    (hgo : ∀ bindings shape, ∃ next, (go (answer bindings shape)).Delivers next ∧
      next bindings shape = outcomes bindings shape) :
    (MemoFlow.consult ask go).Delivers inv outcomes := by
  intro σ within sink hsink bindings shape e s he
  obtain ⟨e, he, heq⟩ := hask bindings shape e he
  obtain ⟨next, hnext, houtcomes⟩ := hgo bindings shape
  simp only [MemoFlow.consult, heq]
  rw [← houtcomes]
  exact Delivers.ofFlow hnext within sink hsink bindings shape e s he

theorem andThen (hfirst : first.Delivers inv outcomes) (hsecond : second.Delivers inv next) :
    (first.andThen second).Delivers inv fun bindings shape =>
      (outcomes bindings shape).flatMap fun o => next o.bindings o.shape := by
  intro σ within sink hsink bindings shape e s he
  rw [feed_flatMap]
  exact hfirst _ (fun bindings shape => feed sink.take (next bindings shape))
    (hsecond within sink hsink) bindings shape e s he

theorem orElse (hfirst : first.Delivers inv outcomes) (hsecond : second.Delivers inv next) :
    (first.orElse second).Delivers inv fun bindings shape =>
      outcomes bindings shape ++ next bindings shape := by
  intro σ within sink hsink bindings shape e s he
  obtain ⟨e, he, heq⟩ := hfirst within sink hsink bindings shape e s he
  rw [feed_append]
  simp only [MemoFlow.orElse, heq]
  cases feed sink.take (outcomes bindings shape) s with
  | done s => exact ⟨e, he, rfl⟩
  | yield s => exact hsecond within sink hsink bindings shape e s he

theorem inTurn {flows : List MemoFlow} {args : List Selector}
    (h : List.Forall₂ (fun flow selector => flow.Delivers inv (Selector.outcomes selector m)) flows
      args) :
    (MemoFlow.inTurn flows).Delivers inv fun bindings shape =>
      argumentOutcomes m bindings shape args := by
  induction h with
  | nil => exact .ofFlow Flow.Delivers.stop
  | cons hflow _ ih => exact hflow.orElse ih

theorem any_eq (h : flow.Delivers inv outcomes) (bindings : Bindings) (shape : Shape)
    (e : Evaluation) (he : inv e) :
    ∃ e', inv e' ∧ flow.any bindings shape e = (e', !(outcomes bindings shape).isEmpty) := by
  obtain ⟨e, he, heq⟩ := h _ _ stopAtFirst.keepsStep_beside bindings shape e false he
  refine ⟨e, he, ?_⟩
  rw [any, heq, value_mapAnswer]
  cases outcomes bindings shape <;> rfl

theorem collect_eq (h : flow.Delivers inv outcomes) (bindings : Bindings) (shape : Shape)
    (e : Evaluation) (he : inv e) :
    ∃ e', inv e' ∧ flow.collect bindings shape e =
      (e', .ofList ((outcomes bindings shape).map (·.shape.id))) := by
  obtain ⟨e, he, heq⟩ := h _ _ collectIds.keepsStep_beside bindings shape e ∅ he
  refine ⟨e, he, ?_⟩
  rw [collect, heq, value_mapAnswer, Flow.Delivers.feed_collectIds]
  rfl

theorem collectFrom_eq (h : flow.Delivers inv outcomes) (starts : List Shape) (e : Evaluation)
    (he : inv e) :
    ∃ e', inv e' ∧ flow.collectFrom starts e =
      (e', .ofList ((starts.flatMap (outcomes ∅)).map (·.shape.id))) := by
  obtain ⟨e, he, heq⟩ := AnswersBeside.feed (l := starts)
    (fun start _ e found he => h _ _ collectIds.keepsStep_beside ∅ start e found he) he ∅
  refine ⟨e, he, ?_⟩
  rw [collectFrom, heq, value_mapAnswer, ← feed_flatMap, Flow.Delivers.feed_collectIds]
  rfl

end Delivers

theorem anyReturns_eq {flows : List MemoFlow} {args : List Selector}
    (h : List.Forall₂ (fun flow selector => flow.Delivers inv (Selector.outcomes selector m)) flows
      args) (bindings : Bindings) (shape : Shape) (e : Evaluation) (he : inv e) :
    ∃ e', inv e' ∧ anyReturns bindings shape flows e =
      (e', decide (shape.id ∈ (argumentOutcomes m bindings shape args).map (·.shape.id))) := by
  induction h generalizing e with
  | nil => exact ⟨e, he, rfl⟩
  | @cons flow selector _ _ hflow _ ih =>
      obtain ⟨e, he, heq⟩ := hflow.collect_eq bindings shape e he
      have hcontains : (Sorted.ofList ((selector.outcomes m bindings shape).map (·.shape.id)) :
          IdSet).contains shape.id = true ↔
            shape.id ∈ (selectorOutcomes m bindings shape selector).map (·.shape.id) := by
        rw [SortedSet.contains_iff, SortedSet.mem_ofList]
        rfl
      simp only [anyReturns, heq, hcontains, argumentOutcomes, List.map_append, List.mem_append]
      split
      · next hmem => exact ⟨e, he, by simp [hmem]⟩
      · next hmem =>
        obtain ⟨e, he, heq⟩ := ih e he
        exact ⟨e, he, by simp [heq, hmem]⟩

end MemoFlow

section Roots

variable {m : Model} {whole : Selector} {place : Place} {args : List Selector}

namespace Model

theorem mem_yieldedAnywhere {shape : Shape} :
    shape ∈ m.yieldedAnywhere args ↔ shape ∈ m.shapes.entries ∧ ∃ start ∈ m.shapes.entries,
      shape.id ∈ (argumentOutcomes m ∅ start args).map (·.shape.id) := by
  rw [yieldedAnywhere, List.mem_filter, List.any_eq_true]
  simp only [decide_eq_true_eq]

theorem pairwise_yieldedAnywhere (m : Model) (args : List Selector) :
    (m.yieldedAnywhere args).Pairwise (Sorted.Precedes Shape.id) :=
  m.shapes.ordered.filter _

theorem shapesAt_yieldedAnywhere {ids : List ShapeId}
    (h : ids = (m.yieldedAnywhere args).map Shape.id) :
    m.shapesAt ids = m.yieldedAnywhere args := by
  have hpairwise : ids.Pairwise fun a b => compare a b = .lt := by
    rw [h, List.pairwise_map]
    exact m.pairwise_yieldedAnywhere args
  have hfound : ∀ shape ∈ m.yieldedAnywhere args, shape ∈ m.shapes.entries :=
    fun shape hshape => (mem_yieldedAnywhere.mp hshape).1
  refine Sorted.eq_of_mem_iff_of_pairwise (pairwise_shapesAt hpairwise)
    (m.pairwise_yieldedAnywhere args) ?_
  intro shape
  rw [mem_shapesAt, h]
  constructor
  · rintro ⟨hshape, hid⟩
    exact (id_mem_map_id_iff hfound hshape).mp hid
  · intro hshape
    exact ⟨hfound shape hshape, List.mem_map_of_mem hshape⟩

theorem entries_ofList_yields (m : Model) (args : List Selector) :
    (Sorted.ofList ((m.shapes.entries.flatMap fun start =>
        argumentOutcomes m ∅ start args).map (·.shape.id)) : IdSet).entries =
      (m.yieldedAnywhere args).map Shape.id := by
  have hdelivers : (argumentFlow m args).Delivers fun bindings shape =>
      argumentOutcomes m bindings shape args :=
    argumentFlow_delivers fun _ _ _ _ stage _ => stage.flow_delivers m
  have hstays : StaysIn m fun bindings shape => argumentOutcomes m bindings shape args :=
    (Stage.function .is args).staysIn m
  rw [yieldedAnywhere, ← shapesAt_collectFrom hdelivers, hdelivers.collectFrom_eq, map_id_shapesAt]
  symm
  rw [List.filter_eq_self]
  intro id hid
  rw [SortedSet.mem_ofList] at hid
  obtain ⟨o, ho, rfl⟩ := List.mem_map.mp hid
  obtain ⟨start, hstart, ho⟩ := List.mem_flatMap.mp ho
  exact contains_iff.mpr ⟨o.shape, hstays ∅ start hstart o ho, rfl⟩

end Model

theorem RootSets.Complete.lookup {roots : RootSets} (h : roots.Complete m whole)
    (hplace : whole.stageAt? place = some (.function .root args)) {found : IdSet}
    (hfound : roots.lookup place = some found) :
    found.entries = (m.yieldedAnywhere args).map Shape.id := by
  obtain ⟨before, after, rfl, -⟩ := List.lookup_eq_some_iff.mp hfound
  obtain ⟨others, hothers, hentries⟩ := h place found (by simp)
  rw [hplace] at hothers
  cases hothers
  exact hentries

namespace Evaluation

variable {before e : Evaluation}

theorem sound_start (m : Model) (selector : Selector) : start.Sound m selector where
  complete _ _ h := by cases h
  pushes _ h := by cases h

theorem Sound.continues (h : e.Sound m whole) : e.Continues m whole e where
  sound := h
  roots := List.suffix_rfl
  pushes := List.prefix_rfl

theorem Continues.remember (h : before.Continues m whole e)
    (hplace : whole.stageAt? place = some (.function .root args)) {found : IdSet}
    (hfound : found.entries = (m.yieldedAnywhere args).map Shape.id) :
    before.Continues m whole (e.remember place found) where
  sound := by
    refine ⟨?_, h.sound.pushes⟩
    intro other set hmem
    rcases List.mem_cons.mp hmem with heq | hmem
    · cases heq
      exact ⟨args, hplace, hfound⟩
    · exact h.sound.complete other set hmem
  roots := h.roots.trans (List.suffix_cons _ _)
  pushes := h.pushes

theorem Continues.log (h : before.Continues m whole e)
    (hplace : whole.stageAt? place = some (.function .root args)) (bindings : Bindings)
    (shape : Shape) :
    before.Continues m whole (e.log place bindings shape (m.yieldedAnywhere args)) where
  sound := by
    refine ⟨h.sound.complete, ?_⟩
    intro push hpush
    rcases List.mem_append.mp hpush with hpush | hpush
    · exact h.sound.pushes push hpush
    · rw [List.mem_singleton.mp hpush]
      exact ⟨⟨args, hplace, rfl⟩, m.pairwise_yieldedAnywhere args, h.sound.complete⟩
  roots := h.roots
  pushes := h.pushes.trans (List.prefix_append _ _)

end Evaluation

/-- What a `:root` hands on is what it yields, whether it is remembered or found out now. -/
theorem MemoFlow.rootShapes_eq {before : Evaluation} {flow : MemoFlow}
    (hplace : whole.stageAt? place = some (.function .root args))
    (hargs : flow.Delivers (before.Continues m whole) fun bindings shape =>
      argumentOutcomes m bindings shape args) (bindings : Bindings) (shape : Shape) (e : Evaluation)
    (he : before.Continues m whole e) :
    ∃ e', before.Continues m whole e' ∧
      rootShapes m place flow bindings shape e = (e', m.yieldedAnywhere args) := by
  rw [rootShapes]
  cases hlookup : e.roots.lookup place with
  | some found =>
      have hfound := he.sound.complete.lookup hplace hlookup
      simp only [Model.shapesAt_yieldedAnywhere hfound]
      exact ⟨_, he.log hplace bindings shape, rfl⟩
  | none =>
      -- other roots may be met and remembered while the arguments are evaluated
      obtain ⟨e, he, heq⟩ := hargs.collectFrom_eq m.shapes.entries e he
      have hfound := m.entries_ofList_yields args
      simp only [heq, Model.shapesAt_yieldedAnywhere hfound]
      exact ⟨_, (he.remember hplace hfound).log hplace bindings shape, rfl⟩

end Roots

section Nesting

variable {m : Model} {whole : Selector} {before : Evaluation} {place : Place}

def Stage.DeliversWithin (m : Model) (whole : Selector) (before : Evaluation) (stage : Stage) :
    Prop :=
  ∀ ⦃place⦄, whole.stageAt? place = some stage →
    (stage.memoFlow m place).Delivers (before.Continues m whole) (stage.outcomes m)

theorem pipelineMemoFlow_delivers {inv : Evaluation → Prop} {pipeline : Pipeline} {i : Nat}
    (h : ∀ x ∈ pipeline.zipIdx i,
      (x.1.memoFlow m (x.2 :: place)).Delivers inv (x.1.outcomes m)) :
    (pipelineMemoFlow m place i pipeline).Delivers inv fun bindings shape =>
      pipelineOutcomes m bindings shape pipeline := by
  induction pipeline generalizing i with
  | nil => exact .ofFlow Flow.Delivers.pass
  | cons stage rest ih =>
      obtain ⟨hstage, hrest⟩ := List.forall_mem_cons.mp h
      exact hstage.andThen (ih hrest)

theorem selectorMemoFlow_delivers {inv : Evaluation → Prop} {selector : Selector} {p : Nat}
    (h : ∀ x ∈ selector.zipIdx p, (pipelineMemoFlow m (x.2 :: place) 0 x.1).Delivers inv
      fun bindings shape => pipelineOutcomes m bindings shape x.1) :
    (selectorMemoFlow m place p selector).Delivers inv (selector.outcomes m) := by
  induction selector generalizing p with
  | nil => exact .ofFlow Flow.Delivers.stop
  | cons pipeline rest ih =>
      obtain ⟨hpipeline, hrest⟩ := List.forall_mem_cons.mp h
      exact hpipeline.orElse (ih hrest)

theorem argumentMemoFlows_deliver {inv : Evaluation → Prop} {args : List Selector} {k : Nat}
    (h : ∀ x ∈ args.zipIdx k,
      (selectorMemoFlow m (x.2 :: place) 0 x.1).Delivers inv (Selector.outcomes x.1 m)) :
    List.Forall₂ (fun flow selector => flow.Delivers inv (Selector.outcomes selector m))
      (argumentMemoFlows m place k args) args := by
  induction args generalizing k with
  | nil => exact .nil
  | cons selector rest ih =>
      obtain ⟨hselector, hrest⟩ := List.forall_mem_cons.mp h
      exact .cons hselector (ih hrest)

theorem Pipeline.memoFlow_delivers {inner : Selector}
    (hinner : whole.selectorAt? place = some inner) {pipeline : Pipeline} {p : Nat}
    (hpipeline : inner[p]? = some pipeline)
    (h : ∀ stage ∈ pipeline, stage.DeliversWithin m whole before) :
    (pipelineMemoFlow m (p :: place) 0 pipeline).Delivers (before.Continues m whole)
      fun bindings shape => pipelineOutcomes m bindings shape pipeline := by
  apply pipelineMemoFlow_delivers
  rintro ⟨stage, i⟩ hmem
  have hstage := List.mem_zipIdx_iff_getElem?.mp hmem
  exact h stage (List.mem_of_getElem? hstage) (Selector.stageAt?_cons hinner hpipeline hstage)

theorem Selector.memoFlow_delivers {inner : Selector}
    (hinner : whole.selectorAt? place = some inner)
    (h : ∀ pipeline ∈ inner, ∀ stage ∈ pipeline, stage.DeliversWithin m whole before) :
    (selectorMemoFlow m place 0 inner).Delivers (before.Continues m whole) (inner.outcomes m) := by
  apply selectorMemoFlow_delivers
  rintro ⟨pipeline, p⟩ hmem
  have hpipeline := List.mem_zipIdx_iff_getElem?.mp hmem
  exact Pipeline.memoFlow_delivers hinner hpipeline (h pipeline (List.mem_of_getElem? hpipeline))

theorem Stage.memoFlows_deliver {kind : FunctionKind} {args : List Selector}
    (hplace : whole.stageAt? place = some (.function kind args))
    (h : ∀ selector ∈ args, ∀ pipeline ∈ selector, ∀ stage ∈ pipeline,
      stage.DeliversWithin m whole before) :
    List.Forall₂ (fun flow selector =>
        flow.Delivers (before.Continues m whole) (Selector.outcomes selector m))
      (argumentMemoFlows m place 0 args) args := by
  apply argumentMemoFlows_deliver
  rintro ⟨selector, k⟩ hmem
  have hselector := List.mem_zipIdx_iff_getElem?.mp hmem
  exact Selector.memoFlow_delivers (Selector.selectorAt?_cons hplace hselector)
    (h selector (List.mem_of_getElem? hselector))

end Nesting

theorem Stage.deliversWithin (m : Model) (whole : Selector) (before : Evaluation) (stage : Stage) :
    stage.DeliversWithin m whole before := by
  induction stage using Stage.inductionOn with
  | type filter => exact fun _ _ => .ofFlow ((Stage.type filter).flow_delivers m)
  | «attribute» filter => exact fun _ _ => .ofFlow ((Stage.attribute filter).flow_delivers m)
  | neighbor step => exact fun _ _ => .ofFlow ((Stage.neighbor step).flow_delivers m)
  | bind name => exact fun _ _ => .ofFlow ((Stage.bind name).flow_delivers m)
  | get name => exact fun _ _ => .ofFlow ((Stage.get name).flow_delivers m)
  | capture name selector ih =>
      intro place hplace
      have hheld : (capture name selector).held[0]? = some selector := rfl
      have hselector := Selector.memoFlow_delivers (Selector.selectorAt?_cons hplace hheld) ih
      rw [memoFlow]
      apply MemoFlow.Delivers.consult hselector.collect_eq
      exact fun bindings shape => ⟨_, Flow.Delivers.bind name _, rfl⟩
  | function kind args ih =>
      intro place hplace
      -- the arguments may meet and remember other roots, at places of their own inside of this one
      have hflows := Stage.memoFlows_deliver hplace ih
      have hargs := MemoFlow.Delivers.inTurn hflows
      cases kind with
      | is => exact hargs
      | not =>
          rw [memoFlow]
          apply MemoFlow.Delivers.consult hargs.any_eq
          intro bindings shape
          rw [outcomes]
          cases (argumentOutcomes m bindings shape args).isEmpty with
          | true => exact ⟨_, Flow.Delivers.pass, rfl⟩
          | false => exact ⟨_, Flow.Delivers.stop, rfl⟩
      | test =>
          rw [memoFlow]
          apply MemoFlow.Delivers.consult hargs.any_eq
          intro bindings shape
          rw [outcomes]
          cases (argumentOutcomes m bindings shape args).isEmpty with
          | true => exact ⟨_, Flow.Delivers.stop, rfl⟩
          | false => exact ⟨_, Flow.Delivers.pass, rfl⟩
      | «in» =>
          rw [memoFlow]
          apply MemoFlow.Delivers.consult (MemoFlow.anyReturns_eq hflows)
          intro bindings shape
          rw [outcomes]
          by_cases hmem : shape.id ∈ (argumentOutcomes m bindings shape args).map (·.shape.id)
          · simp only [hmem]
            exact ⟨_, Flow.Delivers.pass, rfl⟩
          · simp only [hmem]
            exact ⟨_, Flow.Delivers.stop, rfl⟩
      | root =>
          rw [memoFlow]
          apply MemoFlow.Delivers.consult (MemoFlow.rootShapes_eq hplace hargs)
          exact fun bindings shape => ⟨_, Flow.Delivers.expand _, rfl⟩

theorem Selector.deliversWithin (m : Model) (selector : Selector) (before : Evaluation) :
    (selectorMemoFlow m [] 0 selector).Delivers (before.Continues m selector)
      (selector.outcomes m) := by
  have hwhole : selector.selectorAt? [] = some selector := rfl
  exact memoFlow_delivers hwhole fun _ _ stage _ => stage.deliversWithin m selector before

namespace Search

variable {m : Model} {selector : Selector} {before : Evaluation}

theorem tryPipelineWithin_answers (optimize : Bool) (candidates : Candidates) (limit : Option Nat)
    {pipeline : Pipeline} {p : Nat} (hpipeline : selector[p]? = some pipeline) (record : Bool)
    {e : Evaluation} (he : before.Continues m selector e) (found : Sorted Match.id) :
    AnswersBeside (before.Continues m selector)
      (tryPipelineWithin m optimize candidates limit pipeline p record (e, found))
      (tryPipeline m optimize candidates limit pipeline found record) := by
  have hwhole : selector.selectorAt? [] = some selector := rfl
  have hdelivers := Pipeline.memoFlow_delivers hwhole hpipeline
    fun stage _ => stage.deliversWithin m selector before
  rw [tryPipelineWithin, tryPipeline]
  apply AnswersBeside.feed _ he
  intro start _ e found he
  rw [pipeline.flow_delivers m]
  exact hdelivers _ _ (keep limit record).keepsStep_beside ∅ start e found he

theorem runWithin_sound (m : Model) (config : SelectorConfig) (selector : Selector)
    (candidates : Candidates) (record : Bool) :
    (runWithin m config selector candidates record).1.Sound m selector ∧
    (runWithin m config selector candidates record).2 =
      run m config selector candidates record := by
  have hstart := Evaluation.sound_start m selector
  have htried : AnswersBeside (Evaluation.start.Continues m selector)
      (feed (fun tried state => tryPipelineWithin m config.optimize candidates
        config.resultLimit tried.1 tried.2 record state) selector.zipIdx (.start, ∅))
      (feed (fun pipeline found => tryPipeline m config.optimize candidates config.resultLimit
        pipeline found record) selector ∅) := by
    apply AnswersBeside.feed_zipIdx _ hstart.continues
    intro tried hmem e found he
    exact tryPipelineWithin_answers config.optimize candidates config.resultLimit
      (List.mem_zipIdx_iff_getElem?.mp hmem) record he found
  rw [runWithin, run]
  split
  · exact ⟨hstart, rfl⟩
  · obtain ⟨e, he, heq⟩ := htried
    rw [heq, value_mapAnswer]
    exact ⟨he.sound, rfl⟩

end Search

/-- In one evaluation, a `:root` hands on the same shapes in the same order each time it is met:
those that its arguments yield from anywhere, without bindings. The evaluation may start out with
whatever is remembered from an earlier part of it, and what is remembered changes no result. -/
theorem Selector.roots_same_wherever_met (selector : Selector) (m : Model) :
    Evaluation.start.Sound m selector ∧
    (∀ {σ : Type} (sink : Sink σ) (bindings : Bindings) (shape : Shape) (e : Evaluation) (s : σ),
      e.Sound m selector →
      (∃ e', e'.Sound m selector ∧ e.roots <:+ e'.roots ∧ e.pushes <+: e'.pushes ∧
        selector.pushWithin m bindings shape sink (e, s) =
          mapAnswer (Prod.mk e') (selector.push m bindings shape sink s)) ∧
      ∀ place args, selector.stageAt? place = some (.function .root args) →
        ∃ e', e'.Sound m selector ∧ e.roots <:+ e'.roots ∧ e.pushes <+: e'.pushes ∧
          ((Stage.function .root args).memoFlow m place).run bindings shape sink.beside (e, s) =
            mapAnswer (Prod.mk e') (feed (sink bindings) (m.yieldedAnywhere args) s)) ∧
    ∀ (config : SelectorConfig) (candidates : Candidates) (record : Bool),
      (Search.runWithin m config selector candidates record).1.Sound m selector ∧
      (Search.runWithin m config selector candidates record).2 =
        Search.run m config selector candidates record := by
  refine ⟨Evaluation.sound_start m selector, ?_,
    fun config => Search.runWithin_sound m config selector⟩
  intro σ sink bindings shape e s he
  constructor
  · obtain ⟨e', he', heq⟩ :=
      selector.deliversWithin m e _ sink sink.keepsStep_beside bindings shape e s he.continues
    refine ⟨e', he'.sound, he'.roots, he'.pushes, ?_⟩
    rw [pushWithin, heq, push, selector.flow_delivers m]
  · intro place args hplace
    obtain ⟨e', he', heq⟩ := (Stage.function .root args).deliversWithin m selector e hplace _ sink
      sink.keepsStep_beside bindings shape e s he.continues
    refine ⟨e', he'.sound, he'.roots, he'.pushes, heq.trans ?_⟩
    exact congrArg _ (feed_map sink.take (fun found => ⟨bindings, found⟩) _ s)

def Selector.rootInRoot : Selector :=
  [[.function .not [[[.function .root [[[.function .root [[[.type (.exact .member)]]],
      .type (.exact (.aggregate .list))]]]]]], .function .root [[[.type (.exact .member)]]]]]

/-- The inner `:root` is met from each of the shapes before the outer one is remembered, and the
limit ends the search at the first shape. What is remembered by then serves from any shape. -/
theorem Selector.roots_same_wherever_met_oneMember :
    ∃ m, Model.build ⟨.error, false, false⟩ oneMember = .ok m ∧
      (Search.runWithin m ⟨true, some 1⟩ rootInRoot .model).1.pushes.map
          (fun push => (push.place, push.offered.map Shape.id)) =
        List.replicate 3 ([0, 0, 0, 0, 0, 0, 0, 0], [⟨"a", "S", some "m"⟩]) ++
          [([0, 0, 0, 0, 0], []), ([1, 0], [⟨"a", "S", some "m"⟩])] ∧
      (Search.runWithin m ⟨true, some 1⟩ rootInRoot .model).1.Sound m rootInRoot ∧
      ∀ shape, ∃ e, e.Sound m rootInRoot ∧
        rootInRoot.pushWithin m ∅ shape collectIds
            ((Search.runWithin m ⟨true, some 1⟩ rootInRoot .model).1, ∅) =
          mapAnswer (Prod.mk e) (rootInRoot.push m ∅ shape collectIds ∅) := by
  have hlogged : (Model.build ⟨.error, false, false⟩ oneMember).map (fun m =>
      (Search.runWithin m ⟨true, some 1⟩ rootInRoot .model).1.pushes.map fun push =>
        (push.place, push.offered.map Shape.id)) =
      .ok (List.replicate 3 ([0, 0, 0, 0, 0, 0, 0, 0], [⟨"a", "S", some "m"⟩]) ++
        [([0, 0, 0, 0, 0], []), ([1, 0], [⟨"a", "S", some "m"⟩])]) := by
    simp only [Model.build, Declarations.resolveAll, Declarations.resolutionOrder,
      DepthFirst.order_eq_workFor]
    decide +kernel
  obtain ⟨m, hbuild, hlogged⟩ := map_eq_ok_iff.mp hlogged
  obtain ⟨-, hpushes, hruns⟩ := roots_same_wherever_met rootInRoot m
  obtain ⟨hsound, -⟩ := hruns ⟨true, some 1⟩ .model true
  refine ⟨m, hbuild, hlogged, hsound, ?_⟩
  intro shape
  obtain ⟨⟨e, he, -, -, heq⟩, -⟩ := hpushes collectIds ∅ shape _ ∅ hsound
  exact ⟨e, he, heq⟩

end SchemaQuery

import SchemaQuery.Proofs.IdText
import SchemaQuery.Proofs.Scoping

namespace SchemaQuery

def isVariableName (text : String) : Bool :=
  match text.toList with
  | [] => false
  | c :: rest => (c.isAlpha || c = '_') && rest.all ShapeId.isIdentifierChar

/-- Only single steps have labels: at least one, none of them twice, and none that has no text. -/
structure NeighborStep.WellFormed (step : NeighborStep) : Prop where
  direction : step.labels ≠ none → step.direction ≠ .recursive
  nonempty : step.labels ≠ some []
  nodup : ∀ labels, step.labels = some labels → labels.Nodup
  noTarget : ∀ labels, step.labels = some labels → RelationshipType.memberTarget ∉ labels

def AttributeKey.WellFormed : AttributeKey → Prop
  | .trait definition _ => definition.WellFormed
  | _ => True

structure AttributeFilter.WellFormed (filter : AttributeFilter) : Prop where
  key : filter.key.WellFormed
  values : ∀ comparison, filter.comparison = some comparison → comparison.values ≠ []

def Selector.Filled (selector : Selector) : Prop :=
  selector ≠ [] ∧ [] ∉ selector

/-- A stage that is well-formed but for the variables that it uses. Every argument of a function is
a single pipeline. -/
inductive Stage.WellFormed : Stage → Prop
  | type (filter : TypeFilter) : WellFormed (.type filter)
  | attribute {filter : AttributeFilter} (hfilter : filter.WellFormed) :
      WellFormed (.attribute filter)
  | neighbor {step : NeighborStep} (hstep : step.WellFormed) : WellFormed (.neighbor step)
  | function {kind : FunctionKind} {pipelines : Selector} (hfilled : pipelines.Filled)
      (harity : ∀ n, kind.arity? = some n → pipelines.length = n)
      (hstages : ∀ pipeline ∈ pipelines, ∀ stage ∈ pipeline, WellFormed stage) :
      WellFormed (.function kind (pipelines.map fun pipeline => [pipeline]))
  | capture {name : String} {selector : Selector} (hname : isVariableName name = true)
      (hfilled : selector.Filled)
      (hstages : ∀ pipeline ∈ selector, ∀ stage ∈ pipeline, WellFormed stage) :
      WellFormed (.capture name selector)
  | bind {name : String} (hname : isVariableName name = true) : WellFormed (.bind name)
  | get {name : String} (hname : isVariableName name = true) : WellFormed (.get name)

/-- A selector with well-formed stages in which every variable that is used is bound on every way
to it. -/
structure Selector.WellFormed (selector : Selector) : Prop where
  filled : selector.Filled
  stages : ∀ pipeline ∈ selector, ∀ stage ∈ pipeline, stage.WellFormed
  scoping : SelectorScoped [] selector

theorem pipelineWays_ne_nil {pipeline : Pipeline} (h : ∀ stage ∈ pipeline, stage.ways ≠ []) :
    pipelineWays pipeline ≠ [] := by
  induction pipeline with
  | nil => exact List.cons_ne_nil [] []
  | cons stage rest ih =>
      obtain ⟨hstage, hrest⟩ := List.forall_mem_cons.mp h
      exact joinWays_ne_nil hstage (ih hrest)

theorem Stage.WellFormed.ways_ne_nil {stage : Stage} (h : stage.WellFormed) : stage.ways ≠ [] := by
  induction h with
  | @function kind pipelines hfilled _ _ ih =>
      rw [ways, argumentWays_map]
      split
      · obtain ⟨pipeline, hpipeline⟩ := List.exists_mem_of_ne_nil pipelines hfilled.1
        obtain ⟨before, after, rfl⟩ := List.append_of_mem hpipeline
        rw [selectorWays_append, selectorWays]
        have hways := pipelineWays_ne_nil (ih pipeline hpipeline)
        exact List.append_ne_nil_of_right_ne_nil _ (List.append_ne_nil_of_left_ne_nil hways _)
      · exact List.cons_ne_nil [] []
  | type | «attribute» | neighbor | capture | bind | get =>
      exact List.cons_ne_nil _ _

end SchemaQuery

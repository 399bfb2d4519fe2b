import Mathlib.Data.List.Forall2
import SchemaQuery.Proofs.Outcomes
import SchemaQuery.Proofs.Scoping

namespace SchemaQuery

namespace Bindings

def Agree (names : List String) (first second : Bindings) : Prop :=
  ∀ name ∈ names, first.shapesOf name = second.shapesOf name

theorem shapesOf_bind (bindings : Bindings) (name other : String) (shapes : IdSet) :
    (bindings.bind name shapes).shapesOf other =
      if name = other then shapes else bindings.shapesOf other := by
  rw [shapesOf, bind, Sorted.find?_insert]
  split <;> rfl

theorem Agree.bind {names : List String} {first second : Bindings} (h : first.Agree names second)
    (name : String) (shapes : IdSet) :
    (first.bind name shapes).Agree (names ++ [name]) (second.bind name shapes) := by
  intro other hother
  rw [shapesOf_bind, shapesOf_bind]
  split
  · rfl
  · next hne =>
    refine h other ((List.mem_append.mp hother).resolve_right fun hmem => ?_)
    exact hne (List.mem_singleton.mp hmem).symm

end Bindings

/-- Two outcomes are of the same shape, and agree on certain names and on those that one of some
ways binds. -/
def Outcome.Agree (names : List String) (ways : List (List String)) (first second : Outcome) :
    Prop :=
  first.shape = second.shape ∧ ∃ way ∈ ways, first.bindings.Agree (names ++ way) second.bindings

theorem Outcome.Agree.mono {names : List String} {ways more : List (List String)}
    (hways : ways ⊆ more) {first second : Outcome} (h : first.Agree names ways second) :
    first.Agree names more second := by
  obtain ⟨hshape, way, hway, hagree⟩ := h
  exact ⟨hshape, way, hways hway, hagree⟩

/-- Bindings that agree on certain names lead to outcomes that agree one by one. -/
def DependsOn (names : List String) (ways : List (List String))
    (outcomes : Bindings → Shape → List Outcome) : Prop :=
  ∀ (first second : Bindings) (shape : Shape), first.Agree names second →
    List.Forall₂ (Outcome.Agree names ways) (outcomes first shape) (outcomes second shape)

namespace DependsOn

variable {m : Model} {names : List String} {ways : List (List String)}
  {outcomes : Bindings → Shape → List Outcome}

theorem map_shape_eq (h : DependsOn names ways outcomes) {first second : Bindings}
    (hagree : first.Agree names second) (shape : Shape) :
    (outcomes first shape).map Outcome.shape = (outcomes second shape).map Outcome.shape := by
  rw [← List.forall₂_eq_eq_eq, List.forall₂_map_left_iff, List.forall₂_map_right_iff]
  exact (h first second shape hagree).imp fun _ _ ho => ho.1

theorem map_id_eq (h : DependsOn names ways outcomes) {first second : Bindings}
    (hagree : first.Agree names second) (shape : Shape) :
    (outcomes first shape).map (·.shape.id) = (outcomes second shape).map (·.shape.id) := by
  have hshapes := congrArg (List.map Shape.id) (h.map_shape_eq hagree shape)
  rwa [List.map_map, List.map_map] at hshapes

theorem isEmpty_eq (h : DependsOn names ways outcomes) {first second : Bindings}
    (hagree : first.Agree names second) (shape : Shape) :
    (outcomes first shape).isEmpty = (outcomes second shape).isEmpty := by
  have hshapes := congrArg List.isEmpty (h.map_shape_eq hagree shape)
  rwa [List.isEmpty_map, List.isEmpty_map] at hshapes

theorem of_expand (next : Bindings → Shape → List Shape)
    (houtcomes : ∀ bindings shape, outcomes bindings shape = (next bindings shape).map (⟨bindings, ·⟩))
    (hnext : ∀ first second shape, Bindings.Agree names first second →
      next first shape = next second shape) : DependsOn names [[]] outcomes := by
  intro first second shape hagree
  rw [houtcomes, houtcomes, hnext first second shape hagree, List.forall₂_map_left_iff,
    List.forall₂_map_right_iff, List.forall₂_same]
  intro found _
  refine ⟨rfl, [], List.mem_singleton_self [], ?_⟩
  rwa [List.append_nil]

theorem of_filter (test : Bindings → Shape → Bool)
    (houtcomes : ∀ bindings shape,
      outcomes bindings shape = if test bindings shape then [⟨bindings, shape⟩] else [])
    (htest : ∀ first second shape, Bindings.Agree names first second →
      test first shape = test second shape) : DependsOn names [[]] outcomes := by
  refine of_expand (fun bindings shape => if test bindings shape then [shape] else []) ?_ ?_
  · intro bindings shape
    rw [houtcomes]
    split <;> rfl
  · intro first second shape hagree
    rw [htest first second shape hagree]

theorem of_bind (name : String) (found : Bindings → Shape → IdSet)
    (houtcomes : ∀ bindings shape,
      outcomes bindings shape = [⟨bindings.bind name (found bindings shape), shape⟩])
    (hfound : ∀ first second shape, Bindings.Agree names first second →
      found first shape = found second shape) : DependsOn names [[name]] outcomes := by
  intro first second shape hagree
  rw [houtcomes, houtcomes, hfound first second shape hagree]
  refine .cons ⟨rfl, [name], List.mem_singleton_self [name], ?_⟩ .nil
  exact hagree.bind name _

theorem pipeline {pipeline : Pipeline}
    (h : ∀ stage ∈ pipeline, ∀ names, stage.Scoped names →
      DependsOn names stage.ways (stage.outcomes m)) (hscoped : PipelineScoped names pipeline) :
    DependsOn names (pipelineWays pipeline) fun bindings shape =>
      pipelineOutcomes m bindings shape pipeline := by
  induction pipeline generalizing names with
  | nil => exact of_expand (fun _ shape => [shape]) (fun _ _ => rfl) fun _ _ _ _ => rfl
  | cons stage rest ih =>
      obtain ⟨hstage, hrest⟩ := List.forall_mem_cons.mp h
      intro first second shape hagree
      refine List.rel_flatMap (hstage names hscoped.1 first second shape hagree) ?_
      rintro ⟨bindings₁, middle⟩ ⟨bindings₂, _⟩ ⟨rfl, way, hway, hmiddle⟩
      refine (ih hrest (hscoped.2 way hway) bindings₁ bindings₂ middle hmiddle).imp ?_
      rintro o₁ o₂ ⟨hshape, next, hnext, ho⟩
      refine ⟨hshape, way ++ next, mem_joinWays.mpr ⟨way, hway, next, hnext, rfl⟩, ?_⟩
      rwa [← List.append_assoc]

theorem append {more : List (List String)} {next : Bindings → Shape → List Outcome}
    (houtcomes : DependsOn names ways outcomes) (hnext : DependsOn names more next) :
    DependsOn names (ways ++ more) fun bindings shape =>
      outcomes bindings shape ++ next bindings shape := by
  intro first second shape hagree
  refine List.rel_append ?_ ?_
  · refine (houtcomes first second shape hagree).imp ?_
    exact fun _ _ ho => ho.mono (List.subset_append_left ways more)
  · refine (hnext first second shape hagree).imp ?_
    exact fun _ _ ho => ho.mono (List.subset_append_right ways more)

theorem selector {selector : Selector}
    (h : ∀ pipeline ∈ selector, ∀ stage ∈ pipeline, ∀ names, stage.Scoped names →
      DependsOn names stage.ways (stage.outcomes m)) (hscoped : SelectorScoped names selector) :
    DependsOn names (selectorWays selector) (selector.outcomes m) := by
  induction selector with
  | nil => exact fun _ _ _ _ => .nil
  | cons first rest ih =>
      obtain ⟨hfirst, hrest⟩ := List.forall_mem_cons.mp h
      exact (pipeline hfirst hscoped.1).append (ih hrest hscoped.2)

theorem arguments {args : List Selector}
    (h : ∀ selector ∈ args, ∀ pipeline ∈ selector, ∀ stage ∈ pipeline, ∀ names,
      stage.Scoped names → DependsOn names stage.ways (stage.outcomes m))
    (hscoped : ArgumentsScoped names args) :
    DependsOn names (argumentWays args) fun bindings shape =>
      argumentOutcomes m bindings shape args := by
  induction args with
  | nil => exact fun _ _ _ _ => .nil
  | cons first rest ih =>
      obtain ⟨hfirst, hrest⟩ := List.forall_mem_cons.mp h
      exact (selector hfirst hscoped.1).append (ih hrest hscoped.2)

end DependsOn

theorem Stage.dependsOn (m : Model) (stage : Stage) (names : List String)
    (hscoped : stage.Scoped names) : DependsOn names stage.ways (stage.outcomes m) := by
  induction stage using Stage.inductionOn generalizing names with
  | type filter => exact .of_filter _ (fun _ _ => rfl) fun _ _ _ _ => rfl
  | «attribute» filter => exact .of_filter _ (fun _ _ => rfl) fun _ _ _ _ => rfl
  | neighbor step => exact .of_expand _ (fun _ _ => rfl) fun _ _ _ _ => rfl
  | bind name => exact .of_bind name _ (fun _ _ => rfl) fun _ _ _ _ => rfl
  | get name =>
      refine .of_expand _ (fun _ _ => rfl) ?_
      intro first second shape hagree
      rw [hagree name hscoped]
  | capture name selector ih =>
      refine .of_bind name _ (fun _ _ => rfl) ?_
      intro first second shape hagree
      exact congrArg Sorted.ofList ((DependsOn.selector ih hscoped).map_id_eq hagree shape)
  | function kind args ih =>
      cases kind with
      | is => exact .arguments ih hscoped
      -- the argument starts without bindings, so that it does not depend on any
      | root => exact .of_expand _ (fun _ _ => rfl) fun _ _ _ _ => rfl
      | not =>
          refine .of_filter _ (fun _ _ => rfl) ?_
          intro first second shape hagree
          exact (DependsOn.arguments ih hscoped).isEmpty_eq hagree shape
      | test =>
          refine .of_filter (fun bindings shape => !(argumentOutcomes m bindings shape args).isEmpty)
            ?_ ?_
          · intro bindings shape
            rw [Stage.outcomes]
            cases (argumentOutcomes m bindings shape args).isEmpty <;> rfl
          · intro first second shape hagree
            rw [(DependsOn.arguments ih hscoped).isEmpty_eq hagree shape]
      | «in» =>
          refine .of_filter (fun bindings shape =>
            decide (shape.id ∈ (argumentOutcomes m bindings shape args).map (·.shape.id))) ?_ ?_
          · intro bindings shape
            rw [Stage.outcomes]
            simp only [decide_eq_true_eq]
          · intro first second shape hagree
            rw [(DependsOn.arguments ih hscoped).map_id_eq hagree shape]

/-- Every variable that a pipeline uses is bound in it. -/
def Pipeline.Closed (pipeline : Pipeline) : Prop :=
  PipelineScoped [] pipeline

theorem Pipeline.Closed.map_shape_eq {pipeline : Pipeline} (h : pipeline.Closed) (m : Model)
    (first second : Bindings) (shape : Shape) :
    (pipelineOutcomes m first shape pipeline).map Outcome.shape =
      (pipelineOutcomes m second shape pipeline).map Outcome.shape := by
  have hpipeline := DependsOn.pipeline (fun stage _ => stage.dependsOn m) h
  exact hpipeline.map_shape_eq (fun _ hname => absurd hname List.not_mem_nil) shape

end SchemaQuery

import Mathlib.Data.List.Basic
import SchemaQuery.Selector.Basic

/-!
Which variables are bound where in a selector. A way through a selector takes one of its
alternatives, and goes through one argument of every `:is` in it; what other functions and captures
hold lies aside of it.
-/

namespace SchemaQuery

def joinWays (first second : List (List String)) : List (List String) :=
  first.flatMap fun way => second.map fun next => way ++ next

mutual

/-- The names that a stage binds on each way through it. -/
def Stage.ways : Stage → List (List String)
  | .function kind args => if kind = .is then argumentWays args else [[]]
  | .capture name _ => [[name]]
  | .bind name => [[name]]
  | _ => [[]]

def pipelineWays : List Stage → List (List String)
  | [] => [[]]
  | stage :: rest => joinWays stage.ways (pipelineWays rest)

def selectorWays : List (List Stage) → List (List String)
  | [] => []
  | pipeline :: rest => pipelineWays pipeline ++ selectorWays rest

def argumentWays : List (List (List Stage)) → List (List String)
  | [] => []
  | selector :: rest => selectorWays selector ++ argumentWays rest

end

mutual

/-- Every variable used in a stage is bound on every way to it that starts with certain names. The
argument of `:root` starts with none. -/
def Stage.Scoped (bound : List String) : Stage → Prop
  | .get name => name ∈ bound
  | .function kind args => ArgumentsScoped (if kind = .root then [] else bound) args
  | .capture _ selector => SelectorScoped bound selector
  | _ => True

def PipelineScoped (bound : List String) : List Stage → Prop
  | [] => True
  | stage :: rest => stage.Scoped bound ∧ ∀ way ∈ stage.ways, PipelineScoped (bound ++ way) rest

def SelectorScoped (bound : List String) : List (List Stage) → Prop
  | [] => True
  | pipeline :: rest => PipelineScoped bound pipeline ∧ SelectorScoped bound rest

def ArgumentsScoped (bound : List String) : List (List (List Stage)) → Prop
  | [] => True
  | selector :: rest => SelectorScoped bound selector ∧ ArgumentsScoped bound rest

end

def Stage.Plain : Stage → Prop
  | .type _ | .attribute _ | .neighbor _ => True
  | .function _ _ | .capture _ _ | .bind _ | .get _ => False

theorem Stage.Plain.ways_eq {stage : Stage} (h : stage.Plain) : stage.ways = [[]] := by
  cases stage with
  | type | «attribute» | neighbor => rfl
  | function | capture | bind | get => cases h

theorem Stage.Plain.scoped {stage : Stage} (h : stage.Plain) (bound : List String) :
    stage.Scoped bound := by
  cases stage with
  | type | «attribute» | neighbor => trivial
  | function | capture | bind | get => cases h

section Joining

variable {first second third : List (List String)}

theorem mem_joinWays {way : List String} :
    way ∈ joinWays first second ↔ ∃ before ∈ first, ∃ next ∈ second, before ++ next = way := by
  simp only [joinWays, List.mem_flatMap, List.mem_map]

theorem joinWays_assoc :
    joinWays (joinWays first second) third = joinWays first (joinWays second third) := by
  simp only [joinWays, List.flatMap_assoc, List.flatMap_map, List.map_flatMap, List.map_map,
    Function.comp_def, List.append_assoc]

@[simp] theorem joinWays_nil_right (ways : List (List String)) : joinWays ways [[]] = ways := by
  simp [joinWays]

@[simp] theorem joinWays_nil_left (ways : List (List String)) : joinWays [[]] ways = ways := by
  simp [joinWays]

theorem joinWays_ne_nil (hfirst : first ≠ []) (hsecond : second ≠ []) :
    joinWays first second ≠ [] := by
  obtain ⟨before, hbefore⟩ := List.exists_mem_of_ne_nil first hfirst
  obtain ⟨next, hnext⟩ := List.exists_mem_of_ne_nil second hsecond
  exact List.ne_nil_of_mem (mem_joinWays.mpr ⟨before, hbefore, next, hnext, rfl⟩)

theorem forall_mem_joinWays {name : String} :
    (∀ way ∈ joinWays first second, name ∈ way) ↔
      (∀ way ∈ first, name ∈ way) ∨ ∀ way ∈ second, name ∈ way := by
  constructor
  · intro h
    by_cases hfirst : ∀ way ∈ first, name ∈ way
    · exact .inl hfirst
    · obtain ⟨before, hbefore, hmissing⟩ := not_forall₂.mp hfirst
      refine .inr fun next hnext => ?_
      have hmem := h _ (mem_joinWays.mpr ⟨before, hbefore, next, hnext, rfl⟩)
      exact (List.mem_append.mp hmem).resolve_left hmissing
  · rintro h way hway
    obtain ⟨before, hbefore, next, hnext, rfl⟩ := mem_joinWays.mp hway
    rcases h with h | h
    · exact List.mem_append_left next (h before hbefore)
    · exact List.mem_append_right before (h next hnext)

theorem forall_joinWays {p : List String → Prop} :
    (∀ way ∈ joinWays first second, p way) ↔
      ∀ before ∈ first, ∀ next ∈ second, p (before ++ next) := by
  simp only [joinWays, List.forall_mem_flatMap, List.forall_mem_map]

theorem forall_joinWays_append {p : List String → Prop} :
    (∀ way ∈ joinWays first (second ++ third), p way) ↔
      (∀ way ∈ joinWays first second, p way) ∧ ∀ way ∈ joinWays first third, p way := by
  simp only [forall_joinWays, List.forall_mem_append, forall_and]

end Joining

theorem pipelineWays_append (before after : Pipeline) :
    pipelineWays (before ++ after) = joinWays (pipelineWays before) (pipelineWays after) := by
  induction before with
  | nil => simp [pipelineWays]
  | cons stage rest ih =>
      rw [List.cons_append, pipelineWays, pipelineWays, ih, joinWays_assoc]

theorem selectorWays_append (before after : Selector) :
    selectorWays (before ++ after) = selectorWays before ++ selectorWays after := by
  induction before with
  | nil => rfl
  | cons pipeline rest ih =>
      rw [List.cons_append, selectorWays, selectorWays, ih, List.append_assoc]

theorem pipelineScoped_append {bound : List String} {before after : Pipeline} :
    PipelineScoped bound (before ++ after) ↔
      PipelineScoped bound before ∧
        ∀ way ∈ pipelineWays before, PipelineScoped (bound ++ way) after := by
  induction before generalizing bound with
  | nil => simp [PipelineScoped, pipelineWays]
  | cons stage rest ih =>
      simp only [List.cons_append, PipelineScoped, pipelineWays, forall_joinWays, ih,
        List.append_assoc, forall_and, and_assoc]

theorem selectorScoped_iff {bound : List String} {selector : Selector} :
    SelectorScoped bound selector ↔ ∀ pipeline ∈ selector, PipelineScoped bound pipeline := by
  induction selector with
  | nil => simp [SelectorScoped]
  | cons pipeline rest ih => rw [SelectorScoped, ih, List.forall_mem_cons]

theorem argumentsScoped_iff {bound : List String} {args : List Selector} :
    ArgumentsScoped bound args ↔ ∀ selector ∈ args, SelectorScoped bound selector := by
  induction args with
  | nil => simp [ArgumentsScoped]
  | cons selector rest ih => rw [ArgumentsScoped, ih, List.forall_mem_cons]

theorem argumentWays_map (pipelines : List Pipeline) :
    argumentWays (pipelines.map fun pipeline => [pipeline]) = selectorWays pipelines := by
  induction pipelines with
  | nil => rfl
  | cons pipeline rest ih =>
      rw [List.map_cons, argumentWays, ih, selectorWays, selectorWays, selectorWays,
        List.append_nil]

theorem argumentsScoped_map {bound : List String} {pipelines : List Pipeline} :
    ArgumentsScoped bound (pipelines.map fun pipeline => [pipeline]) ↔
      SelectorScoped bound pipelines := by
  induction pipelines with
  | nil => rfl
  | cons pipeline rest ih =>
      rw [List.map_cons, ArgumentsScoped, ih, SelectorScoped, SelectorScoped, SelectorScoped,
        and_true]

def Tracks (scope : List String) (ways : List (List String)) : Prop :=
  ∀ name, name ∈ scope ↔ ∀ way ∈ ways, name ∈ way

namespace Tracks

variable {scope : List String} {ways : List (List String)}

theorem nil : Tracks [] [[]] := by
  intro name
  rw [List.forall_mem_singleton]

theorem insert (h : Tracks scope ways) (name : String) :
    Tracks (scope.insert name) (joinWays ways [[name]]) := by
  intro other
  rw [List.mem_insert_iff, forall_mem_joinWays, List.forall_mem_singleton, List.mem_singleton,
    h other, or_comm]

end Tracks

end SchemaQuery

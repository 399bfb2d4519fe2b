import Mathlib.Data.List.Basic
import Mathlib.Data.Set.Basic
import SchemaQuery.Proofs.Outcomes

namespace SchemaQuery

open Std

/-- New names for variables. Two variables never get the same one, and some may get none. -/
structure Renaming where
  newName? : String → Option String
  injective : ∀ {first second name : String}, newName? first = some name →
    newName? second = some name → first = second

namespace Renaming

def everywhere (f : String → String) (hf : f.Injective) : Renaming where
  newName? name := some (f name)
  injective := by
    rintro first second _ ⟨⟩ hsecond
    exact hf (Option.some.inj hsecond).symm

def without (names : Set String) [DecidablePred (· ∈ names)] : Renaming where
  newName? name := if name ∈ names then none else some name
  injective := by
    intro first second name hfirst hsecond
    simp only [Option.ite_none_left_eq_some, Option.some.injEq] at hfirst hsecond
    exact hfirst.2.trans hsecond.2.symm

theorem newName?_without {names : Set String} [DecidablePred (· ∈ names)] {name new : String} :
    (without names).newName? name = some new ↔ name ∉ names ∧ name = new := by
  simp [without]

end Renaming

namespace Bindings

/-- The same sets under new names. What has no new name is left out. -/
def rename (r : Renaming) (bindings : Bindings) : Bindings :=
  .ofList (bindings.entries.filterMap fun (name, shapes) => (r.newName? name).map (·, shapes))

variable {r : Renaming} {bindings : Bindings}

theorem mem_rename {new : String} {shapes : IdSet} :
    (new, shapes) ∈ (bindings.rename r).entries ↔
      ∃ name, r.newName? name = some new ∧ (name, shapes) ∈ bindings.entries := by
  have hnodup : ((bindings.entries.filterMap fun (name, shapes) =>
      (r.newName? name).map (·, shapes)).map Prod.fst).Nodup := by
    have hkeys : (bindings.entries.filterMap fun (name, shapes) =>
        (r.newName? name).map (·, shapes)).map Prod.fst = bindings.keys.filterMap r.newName? := by
      rw [List.map_filterMap, Sorted.keys, List.filterMap_map]
      congr 1
      funext entry
      cases h : r.newName? entry.1 <;> simp [h]
    rw [hkeys]
    exact bindings.nodup_keys.filterMap fun _ _ _ => r.injective
  rw [rename, Sorted.mem_ofList_of_nodup hnodup, List.mem_filterMap]
  constructor
  · rintro ⟨⟨name, found⟩, hmem, hnew⟩
    obtain ⟨_, hname, heq⟩ := Option.map_eq_some_iff.mp hnew
    cases heq
    exact ⟨name, hname, hmem⟩
  · rintro ⟨name, hname, hmem⟩
    exact ⟨(name, shapes), hmem, by simp only [hname, Option.map_some]⟩

theorem rename_empty (r : Renaming) : (∅ : Bindings).rename r = ∅ := rfl

theorem ext_mem {first second : Bindings}
    (h : ∀ name shapes, (name, shapes) ∈ first.entries ↔ (name, shapes) ∈ second.entries) :
    first = second :=
  Sorted.ext (Sorted.eq_of_mem_iff_of_pairwise first.ordered second.ordered fun entry =>
    h entry.1 entry.2)

theorem rename_bind_some {name new : String} (h : r.newName? name = some new) (shapes : IdSet) :
    (bindings.bind name shapes).rename r = (bindings.rename r).bind new shapes := by
  refine ext_mem fun other found => ?_
  simp only [mem_rename, bind, Sorted.mem_insert, Prod.mk.injEq]
  constructor
  · rintro ⟨old, hold, ⟨rfl, rfl⟩ | ⟨hmem, hne⟩⟩
    · rw [h] at hold
      exact .inl ⟨(Option.some.inj hold).symm, rfl⟩
    · refine .inr ⟨⟨old, hold, hmem⟩, ?_⟩
      rintro rfl
      exact hne (r.injective hold h)
  · rintro (⟨rfl, rfl⟩ | ⟨⟨old, hold, hmem⟩, hne⟩)
    · exact ⟨name, h, .inl ⟨rfl, rfl⟩⟩
    · refine ⟨old, hold, .inr ⟨hmem, ?_⟩⟩
      rintro rfl
      rw [h] at hold
      exact hne (Option.some.inj hold).symm

theorem rename_bind_none {name : String} (h : r.newName? name = none) (shapes : IdSet) :
    (bindings.bind name shapes).rename r = bindings.rename r := by
  refine ext_mem fun other found => ?_
  simp only [mem_rename, bind, Sorted.mem_insert, Prod.mk.injEq]
  constructor
  · rintro ⟨old, hold, ⟨rfl, rfl⟩ | ⟨hmem, -⟩⟩
    · rw [h] at hold
      cases hold
    · exact ⟨old, hold, hmem⟩
  · rintro ⟨old, hold, hmem⟩
    refine ⟨old, hold, .inr ⟨hmem, ?_⟩⟩
    rintro rfl
    rw [h] at hold
    cases hold

theorem shapesOf_rename {name new : String} (h : r.newName? name = some new) :
    (bindings.rename r).shapesOf new = bindings.shapesOf name := by
  have hfind : ((bindings.rename r).find? new).map Prod.snd =
      (bindings.find? name).map Prod.snd := by
    apply Option.ext
    intro shapes
    simp only [Option.map_eq_some_iff, Sorted.find?_eq_some_iff]
    constructor
    · rintro ⟨⟨_, _⟩, ⟨hmem, rfl⟩, rfl⟩
      obtain ⟨old, hold, hmem⟩ := mem_rename.mp hmem
      rw [r.injective hold h] at hmem
      exact ⟨(name, _), ⟨hmem, rfl⟩, rfl⟩
    · rintro ⟨⟨_, _⟩, ⟨hmem, rfl⟩, rfl⟩
      exact ⟨(new, _), ⟨mem_rename.mpr ⟨_, h, hmem⟩, rfl⟩, rfl⟩
  rw [shapesOf, shapesOf, hfind]

theorem rename_without (names : Set String) [DecidablePred (· ∈ names)] (bindings : Bindings) :
    bindings.rename (.without names) = bindings.filter fun (name, _) => name ∉ names := by
  refine ext_mem fun name shapes => ?_
  rw [mem_rename]
  simp only [Renaming.newName?_without, Sorted.filter, List.mem_filter, decide_eq_true_eq]
  constructor
  · rintro ⟨_, ⟨hname, rfl⟩, hmem⟩
    exact ⟨hmem, hname⟩
  · rintro ⟨hmem, hname⟩
    exact ⟨name, ⟨hname, rfl⟩, hmem⟩

end Bindings

mutual

/-- A stage with new names for its variables. Where a name is bound that has no new one, nothing is
left of the stage. -/
def Stage.rename (r : Renaming) : Stage → List Stage
  | .type filter => [.type filter]
  | .attribute filter => [.attribute filter]
  | .neighbor step => [.neighbor step]
  | .function kind args => [.function kind (renameArguments r args)]
  | .capture name selector =>
    match r.newName? name with
    | some new => [.capture new (renameSelector r selector)]
    | none => []
  | .bind name =>
    match r.newName? name with
    | some new => [.bind new]
    | none => []
  | .get name => [.get ((r.newName? name).getD name)]

def renamePipeline (r : Renaming) : List Stage → List Stage
  | [] => []
  | stage :: rest => stage.rename r ++ renamePipeline r rest

def renameSelector (r : Renaming) : List (List Stage) → List (List Stage)
  | [] => []
  | pipeline :: rest => renamePipeline r pipeline :: renameSelector r rest

def renameArguments (r : Renaming) : List (List (List Stage)) → List (List (List Stage))
  | [] => []
  | selector :: rest => renameSelector r selector :: renameArguments r rest

end

mutual

def Stage.reads : Stage → List String
  | .get name => [name]
  | .function _ args => argumentReads args
  | .capture _ selector => selectorReads selector
  | _ => []

def pipelineReads : List Stage → List String
  | [] => []
  | stage :: rest => stage.reads ++ pipelineReads rest

def selectorReads : List (List Stage) → List String
  | [] => []
  | pipeline :: rest => pipelineReads pipeline ++ selectorReads rest

def argumentReads : List (List (List Stage)) → List String
  | [] => []
  | selector :: rest => selectorReads selector ++ argumentReads rest

end

namespace Selector

def rename (r : Renaming) (selector : Selector) : Selector :=
  renameSelector r selector

def reads (selector : Selector) : List String :=
  selectorReads selector

end Selector

def Renaming.Covers (r : Renaming) (names : List String) : Prop :=
  ∀ name ∈ names, ∃ new, r.newName? name = some new

theorem Renaming.covers_append {r : Renaming} {first second : List String} :
    r.Covers (first ++ second) ↔ r.Covers first ∧ r.Covers second :=
  List.forall_mem_append

def Outcome.rename (r : Renaming) (o : Outcome) : Outcome :=
  ⟨o.bindings.rename r, o.shape⟩

/-- What is yielded under new names is what is yielded under the old ones. -/
def Renamed (r : Renaming) (outcomes renamed : Bindings → Shape → List Outcome) : Prop :=
  ∀ bindings shape, renamed (bindings.rename r) shape =
    (outcomes bindings shape).map (Outcome.rename r)

namespace Renamed

variable {m : Model} {r : Renaming}
variable {outcomes renamed next renamedNext : Bindings → Shape → List Outcome}

theorem map_id_eq (h : Renamed r outcomes renamed) (bindings : Bindings) (shape : Shape) :
    (renamed (bindings.rename r) shape).map (·.shape.id) =
      (outcomes bindings shape).map (·.shape.id) := by
  rw [h, List.map_map]
  rfl

theorem isEmpty_eq (h : Renamed r outcomes renamed) (bindings : Bindings) (shape : Shape) :
    (renamed (bindings.rename r) shape).isEmpty = (outcomes bindings shape).isEmpty := by
  rw [h, List.isEmpty_map]

theorem append (h : Renamed r outcomes renamed) (hnext : Renamed r next renamedNext) :
    Renamed r (fun bindings shape => outcomes bindings shape ++ next bindings shape)
      fun bindings shape => renamed bindings shape ++ renamedNext bindings shape := by
  intro bindings shape
  simp only [List.map_append, h bindings shape, hnext bindings shape]

def OfStage (m : Model) (r : Renaming) (stage : Stage) : Prop :=
  r.Covers stage.reads → Renamed r (stage.outcomes m) fun bindings shape =>
    pipelineOutcomes m bindings shape (stage.rename r)

theorem pipeline {pipeline : Pipeline} (h : ∀ stage ∈ pipeline, OfStage m r stage)
    (hreads : r.Covers (pipelineReads pipeline)) :
    Renamed r (fun bindings shape => pipelineOutcomes m bindings shape pipeline)
      fun bindings shape => pipelineOutcomes m bindings shape (renamePipeline r pipeline) := by
  induction pipeline with
  | nil => exact fun _ _ => rfl
  | cons stage rest ih =>
      obtain ⟨hstage, hrest⟩ := List.forall_mem_cons.mp h
      obtain ⟨hread, hlater⟩ := Renaming.covers_append.mp hreads
      intro bindings shape
      have hfirst : pipelineOutcomes m (bindings.rename r) shape (stage.rename r) = _ :=
        hstage hread bindings shape
      simp only [renamePipeline, pipelineOutcomes_append, hfirst, pipelineOutcomes,
        List.flatMap_map, List.map_flatMap]
      congr 1
      funext o
      exact ih hrest hlater o.bindings o.shape

theorem selector {selector : Selector} (h : ∀ pipeline ∈ selector, ∀ stage ∈ pipeline,
      OfStage m r stage) (hreads : r.Covers (selectorReads selector)) :
    Renamed r (selector.outcomes m) ((selector.rename r).outcomes m) := by
  induction selector with
  | nil => exact fun _ _ => rfl
  | cons first rest ih =>
      obtain ⟨hfirst, hrest⟩ := List.forall_mem_cons.mp h
      obtain ⟨hread, hlater⟩ := Renaming.covers_append.mp hreads
      exact (pipeline hfirst hread).append (ih hrest hlater)

theorem arguments {args : List Selector} (h : ∀ selector ∈ args, ∀ pipeline ∈ selector,
      ∀ stage ∈ pipeline, OfStage m r stage) (hreads : r.Covers (argumentReads args)) :
    Renamed r (fun bindings shape => argumentOutcomes m bindings shape args)
      fun bindings shape => argumentOutcomes m bindings shape (renameArguments r args) := by
  induction args with
  | nil => exact fun _ _ => rfl
  | cons first rest ih =>
      obtain ⟨hfirst, hrest⟩ := List.forall_mem_cons.mp h
      obtain ⟨hread, hlater⟩ := Renaming.covers_append.mp hreads
      exact (selector hfirst hread).append (ih hrest hlater)

end Renamed

theorem Stage.renamed (m : Model) (r : Renaming) (stage : Stage) : Renamed.OfStage m r stage := by
  induction stage using Stage.inductionOn with
  | type filter | «attribute» filter =>
      intro _ bindings shape
      dsimp only
      rw [rename, pipelineOutcomes_singleton, outcomes, outcomes]
      split <;> rfl
  | neighbor step =>
      intro _ bindings shape
      dsimp only
      rw [rename, pipelineOutcomes_singleton, outcomes, outcomes, List.map_map]
      rfl
  | bind name =>
      intro _ bindings shape
      dsimp only
      rw [rename, outcomes, List.map_singleton, Outcome.rename]
      split
      next new hnew =>
        rw [pipelineOutcomes_singleton, outcomes, Bindings.rename_bind_some hnew]
      next hnone =>
        rw [pipelineOutcomes, Bindings.rename_bind_none hnone]
  | get name =>
      intro hreads bindings shape
      obtain ⟨new, hnew⟩ := hreads name (List.mem_singleton_self name)
      dsimp only
      rw [rename, pipelineOutcomes_singleton, outcomes, outcomes, hnew, Option.getD_some,
        Bindings.shapesOf_rename hnew, List.map_map]
      rfl
  | capture name selector ih =>
      intro hreads bindings shape
      have hids : (selectorOutcomes m (bindings.rename r) shape (renameSelector r selector)).map
          (·.shape.id) = _ := (Renamed.selector ih hreads).map_id_eq bindings shape
      dsimp only
      rw [rename, outcomes, List.map_singleton, Outcome.rename]
      split
      next new hnew =>
        rw [pipelineOutcomes_singleton, outcomes, hids, Bindings.rename_bind_some hnew]
        rfl
      next hnone =>
        rw [pipelineOutcomes, Bindings.rename_bind_none hnone]
  | function kind args ih =>
      intro hreads bindings shape
      have hargs := Renamed.arguments ih hreads
      dsimp only
      rw [rename, pipelineOutcomes_singleton]
      cases kind with
      | is => exact hargs bindings shape
      | not | test =>
          simp only [outcomes, hargs.isEmpty_eq bindings shape]
          split <;> rfl
      | «in» =>
          simp only [outcomes, hargs.map_id_eq bindings shape]
          split <;> rfl
      | root =>
          -- a `:root` starts without any names, under which nothing is bound before and after
          have hids (start : Shape) := hargs.map_id_eq ∅ start
          simp only [Bindings.rename_empty] at hids
          simp only [outcomes, hids, List.map_map]
          rfl

end SchemaQuery

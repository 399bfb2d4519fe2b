import SchemaQuery.Proofs.DepthFirst
import SchemaQuery.Proofs.Discovery
import SchemaQuery.Proofs.VariableNames

namespace SchemaQuery

def Match.rename (r : Renaming) (found : Match) : Match :=
  ⟨found.shape, found.bindings.rename r⟩

namespace Search

variable {m : Model} {r : Renaming} {selector : Selector}

theorem discovered_cons (candidates : Candidates) (pipeline : Pipeline) (rest : Selector) :
    discovered m candidates (pipeline :: rest) =
      (candidates.shapes m).flatMap ((pipelineFlow m pipeline).handed ∅) ++
        discovered m candidates rest := rfl

theorem discovered_rename (hreads : r.Covers selector.reads) (candidates : Candidates) :
    discovered m candidates (selector.rename r) =
      (discovered m candidates selector).map (Outcome.rename r) := by
  induction selector with
  | nil => rfl
  | cons pipeline rest ih =>
      obtain ⟨hread, hlater⟩ := Renaming.covers_append.mp hreads
      have hfirst : (candidates.shapes m).flatMap
          ((pipelineFlow m (renamePipeline r pipeline)).handed ∅) =
            ((candidates.shapes m).flatMap ((pipelineFlow m pipeline).handed ∅)).map
              (Outcome.rename r) := by
        rw [List.map_flatMap]
        congr 1
        funext start
        rw [(Pipeline.flow_delivers _ m).handed_eq, (Pipeline.flow_delivers _ m).handed_eq]
        exact Renamed.pipeline (fun stage _ => stage.renamed m r) hread ∅ start
      have hrest : discovered m candidates (renameSelector r rest) = _ := ih hlater
      rw [Selector.rename, renameSelector, discovered_cons, discovered_cons, hfirst, hrest,
        List.map_append]

theorem map_shape_discovered_rename (hreads : r.Covers selector.reads) (candidates : Candidates) :
    (discovered m candidates (selector.rename r)).map Outcome.shape =
      (discovered m candidates selector).map Outcome.shape := by
  rw [discovered_rename hreads, List.map_map]
  rfl

theorem run_rename (hm : m.Sound) (hreads : r.Covers selector.reads) (config : SelectorConfig)
    (candidates : Candidates) :
    run m config (selector.rename r) candidates true =
      (run m config selector candidates true).map (Match.rename r) := by
  obtain ⟨optimize, limit⟩ := config
  have hordered : ((run m ⟨optimize, limit⟩ selector candidates true).map
      (Match.rename r)).Pairwise (Sorted.Precedes Match.id) :=
    List.pairwise_map.mpr (ordered_run _ selector candidates)
  refine Sorted.eq_of_mem_iff_of_pairwise (ordered_run _ _ candidates) hordered ?_
  intro found
  have hfind : (discovered m candidates (selector.rename r)).find?
      (fun o => o.shape = found.shape) =
        ((discovered m candidates selector).find? fun o => o.shape = found.shape).map
          (Outcome.rename r) := by
    rw [discovered_rename hreads, List.find?_map]
    rfl
  rw [mem_run_iff hm, map_shape_discovered_rename hreads, hfind, List.mem_map]
  constructor
  · rintro ⟨hshape, bindings, hsome, hbindings⟩
    obtain ⟨⟨known, _⟩, hknown, heq⟩ := Option.map_eq_some_iff.mp hsome
    simp only [Outcome.rename, Outcome.mk.injEq] at heq
    obtain ⟨rfl, rfl⟩ := heq
    refine ⟨⟨found.shape, known⟩, (mem_run_iff hm).mpr ⟨hshape, known, hknown, rfl⟩, ?_⟩
    rw [if_pos rfl] at hbindings
    exact congrArg (Match.mk found.shape) hbindings.symm
  · rintro ⟨known, hknown, rfl⟩
    obtain ⟨hshape, bindings, hsome, hbindings⟩ := (mem_run_iff hm).mp hknown
    refine ⟨hshape, bindings.rename r, ?_, ?_⟩
    · exact Option.map_eq_some_iff.mpr ⟨_, hsome, rfl⟩
    · rw [if_pos rfl] at hbindings ⊢
      exact congrArg (Bindings.rename r) hbindings

theorem run_false_rename (hm : m.Sound) (hreads : r.Covers selector.reads)
    (config : SelectorConfig) (candidates : Candidates) :
    run m config (selector.rename r) candidates false = run m config selector candidates false := by
  obtain ⟨optimize, limit⟩ := config
  rw [run_false_eq hm, run_false_eq hm, run_rename hm hreads, List.map_map]
  rfl

end Search

namespace Renaming

theorem covers_everywhere (f : String → String) (hf : f.Injective) (names : List String) :
    (everywhere f hf).Covers names :=
  fun name _ => ⟨f name, rfl⟩

theorem covers_without {names : Set String} [DecidablePred (· ∈ names)] {read : List String}
    (h : ∀ name ∈ names, name ∉ read) : (without names).Covers read :=
  fun name hread => ⟨name, newName?_without.mpr ⟨fun hname => h name hname hread, rfl⟩⟩

end Renaming

/-- Which shapes a selector selects does not depend on the names of its variables, and what it
reports as bound depends on them only in the names. Names that are read nowhere in the selector may
be left out together with what binds them: the same shapes are discovered in the same order, and
what is bound to the other names stays the same. -/
theorem variables_matter_where_read {config : ModelConfig} {declarations : List Declaration}
    {m : Model} (hbuild : Model.build config declarations = .ok m)
    (hids : ∀ d ∈ declarations, d.id.WellFormed) (selector : Selector) (sconfig : SelectorConfig) :
    (∀ (f : String → String) (hf : f.Injective),
      (selector.rename (.everywhere f hf)).selectWith m sconfig = selector.selectWith m sconfig ∧
      (selector.rename (.everywhere f hf)).matchesWith m sconfig =
        (selector.matchesWith m sconfig).map fun found =>
          ⟨found.shape, found.bindings.rename (.everywhere f hf)⟩) ∧
    ∀ (names : Set String) [DecidablePred (· ∈ names)],
      (∀ name ∈ names, name ∉ selector.reads) →
      (∀ candidates,
        (Search.discovered m candidates (selector.rename (.without names))).map Outcome.shape =
          (Search.discovered m candidates selector).map Outcome.shape) ∧
      (selector.rename (.without names)).selectWith m sconfig = selector.selectWith m sconfig ∧
      (selector.rename (.without names)).matchesWith m sconfig =
        (selector.matchesWith m sconfig).map fun found =>
          ⟨found.shape, found.bindings.filter fun (name, _) => name ∉ names⟩ := by
  have hm := Model.sound_of_build hbuild hids
  have hselect (r : Renaming) (hreads : r.Covers selector.reads) :
      (selector.rename r).selectWith m sconfig = selector.selectWith m sconfig := by
    rw [Selector.selectWith, Selector.selectWith, Search.run_false_rename hm hreads]
  constructor
  · intro f hf
    have hreads := Renaming.covers_everywhere f hf selector.reads
    exact ⟨hselect _ hreads, Search.run_rename hm hreads sconfig .model⟩
  · intro names _ hunread
    have hreads := Renaming.covers_without hunread
    refine ⟨Search.map_shape_discovered_rename hreads, hselect _ hreads, ?_⟩
    simp only [← Bindings.rename_without]
    exact Search.run_rename hm hreads sconfig .model

def Selector.readsOne : Selector :=
  [[.bind "x", .type (.exact (.aggregate .structure)),
    .capture "y" [[.bind "x", .neighbor ⟨.forward, none⟩]], .neighbor ⟨.forward, none⟩, .get "x"]]

theorem injective_append_prime : Function.Injective (· ++ "'" : String → String) := by
  intro first second h
  simpa using h

theorem variables_matter_where_read_oneMember :
    ∃ m, Model.build ⟨.error, false, false⟩ oneMember = .ok m ∧
      (∀ d ∈ oneMember, d.id.WellFormed) ∧
      (Selector.readsOne.matchesWith m default).map (fun found =>
        (found.id.text, found.bindings.entries.map fun (name, ids) =>
          (name, ids.entries.map ShapeId.text))) =
        [("a#S", [("x", ["a#S"]), ("y", ["a#S$m"])])] ∧
      (Selector.readsOne.rename (.everywhere (· ++ "'") injective_append_prime)).matchesWith m
          default =
        (Selector.readsOne.matchesWith m default).map (fun found =>
          ⟨found.shape, found.bindings.rename (.everywhere (· ++ "'") injective_append_prime)⟩) ∧
      (∀ name ∈ ({"y"} : Set String), name ∉ Selector.readsOne.reads) ∧
      (Selector.readsOne.rename (.without {"y"})).matchesWith m default =
        (Selector.readsOne.matchesWith m default).map fun found =>
          ⟨found.shape, found.bindings.filter fun (name, _) => name ∉ ({"y"} : Set String)⟩ := by
  have hfound : (Model.build ⟨.error, false, false⟩ oneMember).map (fun m =>
      (Selector.readsOne.matchesWith m default).map (fun found =>
        (found.id.text, found.bindings.entries.map fun (name, ids) =>
          (name, ids.entries.map ShapeId.text)))) =
        .ok [("a#S", [("x", ["a#S"]), ("y", ["a#S$m"])])] := by
    simp only [Model.build, Declarations.resolveAll, Declarations.resolutionOrder,
      DepthFirst.order_eq_workFor]
    decide +kernel
  obtain ⟨m, hbuild, hfound⟩ := map_eq_ok_iff.mp hfound
  have hids : ∀ d ∈ oneMember, d.id.WellFormed := by decide
  have hunread : ∀ name ∈ ({"y"} : Set String), name ∉ Selector.readsOne.reads := by
    rintro _ rfl
    decide
  obtain ⟨hrename, herase⟩ := variables_matter_where_read hbuild hids .readsOne default
  exact ⟨m, hbuild, hids, hfound, (hrename _ injective_append_prime).2, hunread,
    (herase {"y"} hunread).2.2⟩

end SchemaQuery

import Mathlib.Logic.Basic
import SchemaQuery.Proofs.ParsedForm
import SchemaQuery.Proofs.RenderedLexemes

namespace SchemaQuery

open Lexeme

theorem EndsStage.cons {c : Char} (h : c = ' ' ∨ c = ',' ∨ c = ')') (rest : List Char) :
    EndsStage (c :: rest) := by
  rintro _ ⟨⟩
  exact h

/-- Reading a text adds stages to the selector that is being read, wherever the text stands. The
scope follows the ways through these stages. -/
def ReadsBack (text : String) (stages : Pipeline) : Prop :=
  ∀ (before : List (List String)) (level : Level) (outer : List (Level × Opener))
    (rest : List Char), before ≠ [] → Tracks level.scope before →
    (∀ way ∈ before, PipelineScoped way stages) → EndsStage rest →
    ∃ scope, Tracks scope (joinWays before (pipelineWays stages)) ∧
      assemble level outer (.of (text.toList ++ rest)) =
        assemble (level.extend stages scope) outer (.of rest)

theorem ReadsBack.append {first second : String} {stages others : Pipeline}
    (hfirst : ReadsBack first stages) (hsecond : ReadsBack second others)
    (hways : pipelineWays stages ≠ []) :
    ReadsBack (first ++ " " ++ second) (stages ++ others) := by
  intro before level outer rest hbefore hscope hscoped hrest
  have htext : (first ++ " " ++ second).toList ++ rest =
      first.toList ++ ' ' :: (second.toList ++ rest) := by simp
  simp only [pipelineScoped_append] at hscoped
  obtain ⟨scope, hscope, hread⟩ := hfirst before level outer _ hbefore hscope
    (fun way hway => (hscoped way hway).1) (EndsStage.cons (.inl rfl) (second.toList ++ rest))
  have hscoped' : ∀ way ∈ joinWays before (pipelineWays stages), PipelineScoped way others :=
    forall_joinWays.mpr fun way hway => (hscoped way hway).2
  obtain ⟨scope', hscope', hread'⟩ := hsecond _ (level.extend stages scope) outer rest
    (joinWays_ne_nil hbefore hways) hscope hscoped' hrest
  refine ⟨scope', ?_, ?_⟩
  · rw [pipelineWays_append, ← joinWays_assoc]
    exact hscope'
  · rw [htext, hread, Lexemes.of_blank, hread', Level.extend_extend]

theorem readsBack_stages {pipeline : Pipeline} (hne : pipeline ≠ [])
    (hways : ∀ stage ∈ pipeline, stage.ways ≠ [])
    (hstages : ∀ stage ∈ pipeline, ReadsBack stage.render [stage]) :
    ReadsBack (" ".intercalate (stageTexts pipeline)) pipeline := by
  induction pipeline with
  | nil => exact absurd rfl hne
  | cons stage pipeline ih =>
      obtain ⟨hway, hways⟩ := List.forall_mem_cons.mp hways
      obtain ⟨hstage, hstages⟩ := List.forall_mem_cons.mp hstages
      cases pipeline with
      | nil =>
          rw [stageTexts, stageTexts, String.intercalate_singleton]
          exact hstage
      | cons next pipeline =>
          have hrest := ih (List.cons_ne_nil next pipeline) hways hstages
          rw [stageTexts] at hrest
          rw [stageTexts, stageTexts, String.intercalate_cons_cons]
          exact hstage.append hrest (pipelineWays_ne_nil (List.forall_mem_singleton.mpr hway))

theorem assemble_selector {selector : Selector} (hfilled : selector.Filled)
    (hreads : ∀ pipeline ∈ selector, ReadsBack (" ".intercalate (stageTexts pipeline)) pipeline)
    {before : List (List String)} (level : Level) (outer : List (Level × Opener))
    {rest : List Char} (hbefore : before ≠ []) (hstages : level.stages = [])
    (hentry : level.scope = level.entry) (hscope : Tracks level.scope before)
    (hscoped : ∀ way ∈ before, SelectorScoped way selector) (hrest : EndsStage rest) :
    ∃ after : Level, after.alternatives = level.finished ++ selector ∧ after.stages ≠ [] ∧
      (∀ name, name ∈ after.boundByAll ↔
        (∀ common, level.common = some common → name ∈ common) ∧
          ∀ way ∈ joinWays before (selectorWays selector), name ∈ way) ∧
      assemble level outer (.of (selector.render.toList ++ rest)) =
        assemble after outer (.of rest) := by
  induction selector generalizing level with
  | nil => exact absurd rfl hfilled.1
  | cons pipeline others ih =>
      obtain ⟨hpipeline, hothers⟩ := List.forall_mem_cons.mp hreads
      obtain ⟨hnonempty, hnone⟩ := not_or.mp (List.mem_cons.not.mp hfilled.2)
      rw [selectorWays]
      cases others with
      | nil =>
          obtain ⟨scope, hafter, hread⟩ := hpipeline before level outer rest hbefore hscope
            (fun way hway => (hscoped way hway).1) hrest
          refine ⟨level.extend pipeline scope, ?_, ?_, ?_, ?_⟩
          · rw [Level.alternatives_extend, hstages, List.nil_append]
          · rw [Level.stages_extend, hstages, List.nil_append]
            exact Ne.symm hnonempty
          · intro name
            rw [Level.mem_boundByAll, selectorWays, List.append_nil, Level.common_extend,
              Level.scope_extend, hafter name]
          · rw [Selector.render, pipelineTexts, pipelineTexts, String.intercalate_singleton]
            exact hread
      | cons next others =>
          have htext : (Selector.render (pipeline :: next :: others)).toList ++ rest =
              (" ".intercalate (stageTexts pipeline)).toList ++
                ',' :: ' ' :: ((Selector.render (next :: others)).toList ++ rest) := by
            simp [Selector.render, pipelineTexts]
          obtain ⟨scope, hfirst, hread⟩ := hpipeline before level outer _ hbefore hscope
            (fun way hway => (hscoped way hway).1)
            (EndsStage.cons (.inr (.inl rfl))
              (' ' :: ((Selector.render (next :: others)).toList ++ rest)))
          have hempty : ¬(level.extend pipeline scope).stages.isEmpty := by
            simpa [hstages] using Ne.symm hnonempty
          -- after the comma the scope is again the one before the selector
          have hagain : Tracks level.entry before := by rwa [← hentry]
          obtain ⟨after, halternatives, hne, hbound, hread'⟩ :=
            ih ⟨List.cons_ne_nil next others, hnone⟩ hothers
              (level.extend pipeline scope).nextAlternative rfl rfl hagain
              fun way hway => (hscoped way hway).2
          refine ⟨after, ?_, hne, ?_, ?_⟩
          · rw [halternatives, Level.nextAlternative, Level.alternatives_extend, hstages,
              List.nil_append, List.append_assoc, List.singleton_append]
          · intro name
            simp only [Level.common_nextAlternative, Option.some.injEq, forall_eq'] at hbound
            rw [hbound name, Level.mem_boundByAll, Level.common_extend, Level.scope_extend,
              hfirst name, forall_joinWays_append, and_assoc]
          · rw [htext, hread, Lexemes.of_reads (reads_comma _), assemble, if_neg hempty,
              Lexemes.of_blank, hread']

theorem pipelineWays_singleton (stage : Stage) : pipelineWays [stage] = stage.ways := by
  rw [pipelineWays, pipelineWays, joinWays_nil_right]

theorem readsBack_plain {stage : Stage} (hplain : stage.Plain)
    (hreads : ∀ rest, EndsStage rest → Reads (stage.render.toList ++ rest) (.stage stage) rest) :
    ReadsBack stage.render [stage] := by
  intro before level outer rest _ hscope _ hrest
  refine ⟨level.scope, ?_, ?_⟩
  · rw [pipelineWays_singleton, hplain.ways_eq, joinWays_nil_right]
    exact hscope
  · rw [Lexemes.of_reads (hreads rest hrest), assemble]
    rfl

theorem readsBack_bind {name : String} (hname : isVariableName name = true) :
    ReadsBack (Stage.bind name).render [.bind name] := by
  intro before level outer rest _ hscope _ hrest
  have htext : (Stage.bind name).render.toList ++ rest = '$' :: (name.toList ++ rest) := by
    simp [Stage.render]
  refine ⟨level.scope.insert name, ?_, ?_⟩
  · rw [pipelineWays_singleton]
    exact hscope.insert name
  · rw [htext, Lexemes.of_reads (reads_bind hname hrest), assemble]
    rfl

theorem readsBack_get {name : String} (hname : isVariableName name = true) :
    ReadsBack (Stage.get name).render [.get name] := by
  intro before level outer rest _ hscope hscoped hrest
  have htext : (Stage.get name).render.toList ++ rest =
      '$' :: '\x7b' :: (name.toList ++ '\x7d' :: rest) := by
    simp [Stage.render]
  have hbound : name ∈ level.scope := (hscope name).mpr fun way hway => (hscoped way hway).1
  refine ⟨level.scope, ?_, ?_⟩
  · rw [pipelineWays_singleton]
    change Tracks level.scope (joinWays before [[]])
    rw [joinWays_nil_right]
    exact hscope
  · rw [htext, Lexemes.of_reads (reads_get hname), assemble, if_pos hbound]
    rfl

theorem assemble_parentheses {selector : Selector} (hfilled : selector.Filled)
    (hreads : ∀ pipeline ∈ selector, ReadsBack (" ".intercalate (stageTexts pipeline)) pipeline)
    {before : List (List String)} {level : Level} (opener : Opener)
    (outer : List (Level × Opener)) (rest : List Char) (hbefore : before ≠ [])
    (hscope : Tracks level.scope before)
    (hscoped : ∀ way ∈ opener.ways before, SelectorScoped way selector) :
    ∃ inner : Level, inner.alternatives = selector ∧
      Tracks inner.boundByAll (joinWays (opener.ways before) (selectorWays selector)) ∧
      ∀ completed, level.complete opener inner = .ok completed →
        assemble (level.inside opener) ((level, opener) :: outer)
            (.of (selector.render.toList ++ ')' :: rest)) =
          assemble completed outer (.of rest) := by
  obtain ⟨entry, hinside, hentry⟩ := Level.exists_inside_eq_start hscope opener
  obtain ⟨inner, halternatives, hne, hbound, hread⟩ := assemble_selector hfilled hreads
    (.start entry) ((level, opener) :: outer) (opener.ways_ne_nil hbefore) rfl rfl hentry hscoped
    (EndsStage.cons (.inr (.inr rfl)) rest)
  refine ⟨inner, halternatives, ?_, ?_⟩
  · intro name
    rw [hbound name]
    simp [Level.start]
  · intro completed hcomplete
    have hempty : ¬inner.stages.isEmpty := by simpa using hne
    rw [hinside, hread, Lexemes.of_reads (reads_close rest), assemble, if_neg hempty]
    simp only [hcomplete]

theorem readsBack_function {kind : FunctionKind} {pipelines : Selector}
    (hfilled : pipelines.Filled) (harity : ∀ n, kind.arity? = some n → pipelines.length = n)
    (hreads : ∀ pipeline ∈ pipelines,
      ReadsBack (" ".intercalate (stageTexts pipeline)) pipeline) :
    ReadsBack (Stage.function kind (pipelines.map fun pipeline => [pipeline])).render
      [.function kind (pipelines.map fun pipeline => [pipeline])] := by
  intro before level outer rest hbefore hscope hscoped hrest
  have htext : (Stage.function kind (pipelines.map fun pipeline => [pipeline])).render.toList ++
      rest = ':' :: (kind.name.toList ++ '(' :: (pipelines.render.toList ++ ')' :: rest)) := by
    simp [Stage.render, argumentTexts_map, Selector.render]
  -- the argument of `:root` is scoped from no names at all if it is so from one of the ways
  have hinside : ∀ way ∈ Opener.ways before (.function kind kind.name),
      SelectorScoped way pipelines := by
    have hargs : ∀ way ∈ before, SelectorScoped (if kind = .root then [] else way) pipelines :=
      fun way hway => argumentsScoped_map.mp (hscoped way hway).1
    intro start hstart
    rw [Opener.ways] at hstart
    split at hstart
    · next hroot =>
      obtain ⟨way, hway⟩ := List.exists_mem_of_ne_nil before hbefore
      have hscoped := hargs way hway
      rwa [if_pos hroot, ← List.mem_singleton.mp hstart] at hscoped
    · next hroot =>
      have hscoped := hargs start hstart
      rwa [if_neg hroot] at hscoped
  obtain ⟨inner, rfl, hbound, hread⟩ := assemble_parentheses hfilled hreads
    (.function kind kind.name) outer rest hbefore hscope hinside
  refine ⟨if kind = .is then inner.boundByAll else level.scope, ?_, ?_⟩
  · rw [pipelineWays_singleton, Stage.ways, argumentWays_map]
    split
    · next his =>
      subst his
      exact hbound
    · rw [joinWays_nil_right]
      exact hscope
  · rw [htext, Lexemes.of_reads (reads_openFunction kind _), assemble]
    exact hread _ (Level.complete_function_eq_ok_iff.mpr ⟨harity, rfl⟩)

theorem readsBack_capture {name : String} {selector : Selector}
    (hname : isVariableName name = true) (hfilled : selector.Filled)
    (hreads : ∀ pipeline ∈ selector, ReadsBack (" ".intercalate (stageTexts pipeline)) pipeline) :
    ReadsBack (Stage.capture name selector).render [.capture name selector] := by
  intro before level outer rest hbefore hscope hscoped hrest
  have htext : (Stage.capture name selector).render.toList ++ rest =
      '$' :: (name.toList ++ '(' :: (selector.render.toList ++ ')' :: rest)) := by
    simp [Stage.render, Selector.render]
  obtain ⟨inner, rfl, -, hread⟩ := assemble_parentheses hfilled hreads (.capture name) outer rest
    hbefore hscope fun way hway => (hscoped way hway).1
  refine ⟨level.scope.insert name, ?_, ?_⟩
  · rw [pipelineWays_singleton]
    exact hscope.insert name
  · rw [htext, Lexemes.of_reads (reads_openCapture hname), assemble]
    exact hread _ rfl

theorem readsBack_pipelines {selector : Selector} (hfilled : selector.Filled)
    (hstages : ∀ pipeline ∈ selector, ∀ stage ∈ pipeline, stage.WellFormed)
    (hreads : ∀ pipeline ∈ selector, ∀ stage ∈ pipeline, ReadsBack stage.render [stage]) :
    ∀ pipeline ∈ selector, ReadsBack (" ".intercalate (stageTexts pipeline)) pipeline := by
  intro pipeline hpipeline
  refine readsBack_stages ?_ ?_ (hreads pipeline hpipeline)
  · exact ne_of_mem_of_not_mem hpipeline hfilled.2
  · intro stage hstage
    exact (hstages pipeline hpipeline stage hstage).ways_ne_nil

theorem Stage.WellFormed.readsBack {stage : Stage} (h : stage.WellFormed) :
    ReadsBack stage.render [stage] := by
  induction h with
  | type filter => exact readsBack_plain trivial fun rest hrest => reads_typeFilter filter hrest
  | «attribute» hfilter =>
      exact readsBack_plain trivial fun rest _ => reads_attributeFilter hfilter rest
  | neighbor hstep => exact readsBack_plain trivial fun rest hrest => reads_neighborStep hstep hrest
  | function hfilled harity hstages ih =>
      exact readsBack_function hfilled harity (readsBack_pipelines hfilled hstages ih)
  | capture hname hfilled hstages ih =>
      exact readsBack_capture hname hfilled (readsBack_pipelines hfilled hstages ih)
  | bind hname => exact readsBack_bind hname
  | get hname => exact readsBack_get hname

theorem Selector.parse_of_render {selector : Selector} (h : selector.WellFormed) :
    parse selector.render = .ok selector := by
  have hreads := readsBack_pipelines h.filled h.stages fun pipeline hpipeline stage hstage =>
    (h.stages pipeline hpipeline stage hstage).readsBack
  have hscoped : ∀ way ∈ [([] : List String)], SelectorScoped way selector :=
    List.forall_mem_singleton.mpr h.scoping
  have hend : EndsStage [] := by
    intro c hc
    cases hc
  obtain ⟨after, halternatives, hne, -, hread⟩ := assemble_selector h.filled hreads (.start []) []
    (List.cons_ne_nil [] []) rfl rfl Tracks.nil hscoped hend
  have hempty : ¬after.stages.isEmpty := by simpa using hne
  rw [List.append_nil, Lexemes.of_nil] at hread
  rw [parse, hread, assemble, if_neg hempty]
  exact congrArg _ halternatives

/-- The parser yields the well-formed selectors and no others. -/
theorem Selector.parse_range :
    (∀ text selector, parse text = .ok selector → selector.WellFormed) ∧
      ∀ selector : Selector, selector.WellFormed → parse selector.render = .ok selector := by
  constructor
  · intro text selector h
    exact wellFormed_of_parse h
  · intro selector h
    exact parse_of_render h

def Selector.bothBind : Selector :=
  [[.type .any,
    .function .is [[[.bind "x", .neighbor ⟨.reverse, none⟩]],
      [[.capture "x" [[.neighbor ⟨.recursive, none⟩], [.type .number]]]]],
    .attribute ⟨.serviceVersion, none⟩, .get "x"]]

theorem Selector.parse_range_bothBind :
    parse "* // all\n:each( $x<,$x(~> , number) )[ service|version]$\x7bx\x7d" = .ok bothBind ∧
      bothBind.WellFormed ∧
      bothBind.render = "* :is($x <, $x(~>, number)) [service|version] $\x7bx\x7d" ∧
      parse bothBind.render = .ok bothBind := by
  have hparse : parse "* // all\n:each( $x<,$x(~> , number) )[ service|version]$\x7bx\x7d" =
      .ok bothBind := by with_unfolding_all rfl
  have hformed := parse_range.1 _ _ hparse
  have hrender : bothBind.render =
      "* :is($x <, $x(~>, number)) [service|version] $\x7bx\x7d" := by with_unfolding_all rfl
  exact ⟨hparse, hformed, hrender, parse_range.2 _ hformed⟩

end SchemaQuery

import SchemaQuery.Proofs.LexemeForm
import SchemaQuery.Selector.Parse

namespace SchemaQuery

theorem forall_mem_concat {α : Type} {p : α → Prop} {l : List α} {a : α} :
    (∀ b ∈ l ++ [a], p b) ↔ (∀ b ∈ l, p b) ∧ p a := by
  rw [List.forall_mem_append, List.forall_mem_singleton]

namespace Level

/-- The ways to the place that is reached in a selector, given the ways to its start. -/
def reached (before : List (List String)) (level : Level) : List (List String) :=
  joinWays before (pipelineWays level.stages)

def extend (level : Level) (stages : Pipeline) (scope : Scope) : Level :=
  { level with stages := level.stages ++ stages, scope := scope }

section Extend

variable (level : Level) (stages : Pipeline) (scope : Scope)

@[simp] theorem stages_extend : (level.extend stages scope).stages = level.stages ++ stages :=
  rfl

@[simp] theorem scope_extend : (level.extend stages scope).scope = scope := rfl

@[simp] theorem common_extend : (level.extend stages scope).common = level.common := rfl

theorem extend_extend (others : Pipeline) (next : Scope) :
    (level.extend stages scope).extend others next = level.extend (stages ++ others) next := by
  rw [extend, stages_extend, List.append_assoc]
  rfl

theorem alternatives_extend :
    (level.extend stages scope).alternatives = level.finished ++ [level.stages ++ stages] := rfl

end Extend

theorem mem_boundByAll {level : Level} {name : String} :
    name ∈ level.boundByAll ↔
      (∀ common, level.common = some common → name ∈ common) ∧ name ∈ level.scope := by
  unfold boundByAll
  cases hcommon : level.common with
  | none => simp
  | some common => simp

@[simp] theorem common_nextAlternative (level : Level) :
    level.nextAlternative.common = some level.boundByAll := rfl

/-- What has been read of a selector is well-formed, and its scopes are those of the ways. -/
structure Sound (before : List (List String)) (level : Level) : Prop where
  entry : Tracks level.entry before
  unfinished : level.common = none → level.finished = []
  common : ∀ common, level.common = some common →
    Tracks common (joinWays before (selectorWays level.finished))
  filled : [] ∉ level.finished
  finished : ∀ pipeline ∈ level.finished, ∀ stage ∈ pipeline, stage.WellFormed
  finishedScoped : ∀ way ∈ before, SelectorScoped way level.finished
  stages : ∀ stage ∈ level.stages, stage.WellFormed
  stagesScoped : ∀ way ∈ before, PipelineScoped way level.stages
  scope : Tracks level.scope (level.reached before)

theorem complete_function_eq_ok_iff {outer inner completed : Level} {kind : FunctionKind}
    {name : String} :
    outer.complete (.function kind name) inner = .ok completed ↔
      (∀ n, kind.arity? = some n → inner.alternatives.length = n) ∧
        outer.extend [.function kind (inner.alternatives.map fun pipeline => [pipeline])]
          (if kind = .is then inner.boundByAll else outer.scope) = completed := by
  cases kind with
  | not | is | test => simp [complete, FunctionKind.arity?, add, extend]
  | root | «in» =>
      by_cases hlength : inner.alternatives.length = 1
      · simp [complete, FunctionKind.arity?, add, extend, hlength]
      · simp [complete, FunctionKind.arity?, hlength]

end Level

namespace Level.Sound

variable {before : List (List String)} {level : Level}

theorem start {entry : Scope} (h : Tracks entry before) : (Level.start entry).Sound before where
  entry := h
  unfinished := fun _ => rfl
  common := by simp [Level.start]
  filled := List.not_mem_nil
  finished := List.forall_mem_nil _
  finishedScoped := fun _ _ => trivial
  stages := List.forall_mem_nil _
  stagesScoped := fun _ _ => trivial
  scope := by
    rw [reached, Level.start, pipelineWays, joinWays_nil_right]
    exact h

theorem extend (h : level.Sound before) {stage : Stage} {scope : Scope} (hstage : stage.WellFormed)
    (hscoped : ∀ way ∈ level.reached before, stage.Scoped way)
    (hscope : Tracks scope (joinWays (level.reached before) stage.ways)) :
    (level.extend [stage] scope).Sound before where
  entry := h.entry
  unfinished := h.unfinished
  common := h.common
  filled := h.filled
  finished := h.finished
  finishedScoped := h.finishedScoped
  stages := forall_mem_concat.mpr ⟨h.stages, hstage⟩
  stagesScoped := by
    intro way hway
    rw [Level.stages_extend, pipelineScoped_append]
    refine ⟨h.stagesScoped way hway, ?_⟩
    intro next hnext
    exact ⟨hscoped _ (mem_joinWays.mpr ⟨way, hway, next, hnext, rfl⟩), fun _ _ => trivial⟩
  scope := by
    rw [reached, Level.stages_extend, pipelineWays_append, pipelineWays, pipelineWays,
      joinWays_nil_right, ← joinWays_assoc]
    exact hscope

theorem add (h : level.Sound before) {stage : Stage} (hstage : stage.WellFormed)
    (hways : stage.ways = [[]]) (hscoped : ∀ way ∈ level.reached before, stage.Scoped way) :
    (level.add stage).Sound before := by
  refine h.extend hstage hscoped ?_
  rw [hways, joinWays_nil_right]
  exact h.scope

theorem addBinding (h : level.Sound before) {stage : Stage} {name : String}
    (hstage : stage.WellFormed) (hways : stage.ways = [[name]])
    (hscoped : ∀ way ∈ level.reached before, stage.Scoped way) :
    (level.addBinding stage name).Sound before := by
  refine h.extend hstage hscoped ?_
  rw [hways]
  exact h.scope.insert name

theorem alternatives_filled (h : level.Sound before) (hstages : level.stages ≠ []) :
    level.alternatives.Filled := by
  constructor
  · exact List.append_ne_nil_of_right_ne_nil _ (List.cons_ne_nil _ _)
  · rw [alternatives, List.mem_append, List.mem_singleton]
    exact not_or.mpr ⟨h.filled, hstages.symm⟩

theorem alternatives_wellFormed (h : level.Sound before) :
    ∀ pipeline ∈ level.alternatives, ∀ stage ∈ pipeline, stage.WellFormed :=
  forall_mem_concat.mpr ⟨h.finished, h.stages⟩

theorem alternatives_scoped (h : level.Sound before) {way : List String} (hway : way ∈ before) :
    SelectorScoped way level.alternatives := by
  rw [selectorScoped_iff, alternatives, forall_mem_concat, ← selectorScoped_iff]
  exact ⟨h.finishedScoped way hway, h.stagesScoped way hway⟩

theorem boundByAll (h : level.Sound before) :
    Tracks level.boundByAll (joinWays before (selectorWays level.alternatives)) := by
  intro name
  rw [alternatives, selectorWays_append, forall_joinWays_append, selectorWays, selectorWays,
    List.append_nil]
  rw [Level.mem_boundByAll, h.scope name, reached]
  apply and_congr_left
  intro _
  cases hcommon : level.common with
  | none =>
      rw [h.unfinished hcommon, selectorWays, forall_joinWays]
      simp
  | some common => simpa using h.common common hcommon name

theorem nextAlternative (h : level.Sound before) (hstages : level.stages ≠ []) :
    level.nextAlternative.Sound before where
  entry := h.entry
  unfinished := by simp [Level.nextAlternative]
  common := by
    rintro _ ⟨⟩
    exact h.boundByAll
  filled := (h.alternatives_filled hstages).2
  finished := h.alternatives_wellFormed
  finishedScoped := fun _ hway => h.alternatives_scoped hway
  stages := List.forall_mem_nil _
  stagesScoped := fun _ _ => trivial
  scope := by
    rw [reached, Level.nextAlternative, pipelineWays, joinWays_nil_right]
    exact h.entry

end Level.Sound

namespace Opener

def ways (here : List (List String)) : Opener → List (List String)
  | .function kind _ => if kind = .root then [[]] else here
  | .capture _ => here

def WellFormed : Opener → Prop
  | .function _ _ => True
  | .capture name => isVariableName name = true

theorem ways_ne_nil {here : List (List String)} (h : here ≠ []) (opener : Opener) :
    opener.ways here ≠ [] := by
  cases opener with
  | capture name => exact h
  | function kind name =>
      rw [ways]
      split
      · exact List.cons_ne_nil [] []
      · exact h

end Opener

theorem Level.exists_inside_eq_start {level : Level} {here : List (List String)}
    (h : Tracks level.scope here) (opener : Opener) :
    ∃ entry, level.inside opener = .start entry ∧ Tracks entry (opener.ways here) := by
  cases opener with
  | capture name => exact ⟨level.scope, rfl, h⟩
  | function kind name =>
      cases kind with
      | root => exact ⟨[], rfl, Tracks.nil⟩
      | not | is | test | «in» => exact ⟨level.scope, rfl, h⟩

namespace Level.Sound

variable {before : List (List String)} {level inner : Level}

theorem inside (h : level.Sound before) (opener : Opener) :
    (level.inside opener).Sound (opener.ways (level.reached before)) := by
  obtain ⟨entry, hinside, hentry⟩ := Level.exists_inside_eq_start h.scope opener
  rw [hinside]
  exact start hentry

theorem complete_function (h : level.Sound before) {kind : FunctionKind} {name : String}
    (hinner : inner.Sound (Opener.ways (level.reached before) (.function kind name)))
    (hstages : inner.stages ≠ []) {completed : Level}
    (hcomplete : level.complete (.function kind name) inner = .ok completed) :
    completed.Sound before := by
  obtain ⟨harity, rfl⟩ := complete_function_eq_ok_iff.mp hcomplete
  refine h.extend
    (.function (hinner.alternatives_filled hstages) harity hinner.alternatives_wellFormed) ?_ ?_
  · intro way hway
    rw [Stage.Scoped, argumentsScoped_map]
    apply hinner.alternatives_scoped
    rw [Opener.ways]
    split
    · exact List.mem_singleton_self []
    · exact hway
  · rw [Stage.ways, argumentWays_map]
    split
    · next his =>
      subst his
      exact hinner.boundByAll
    · rw [joinWays_nil_right]
      exact h.scope

theorem complete_capture (h : level.Sound before) {name : String}
    (hname : isVariableName name = true) (hinner : inner.Sound (level.reached before))
    (hstages : inner.stages ≠ []) :
    (level.addBinding (.capture name inner.alternatives) name).Sound before := by
  refine h.addBinding (.capture hname (hinner.alternatives_filled hstages)
    hinner.alternatives_wellFormed) rfl ?_
  intro way hway
  exact hinner.alternatives_scoped hway

theorem complete (h : level.Sound before) {opener : Opener} (hopener : opener.WellFormed)
    (hinner : inner.Sound (opener.ways (level.reached before))) (hstages : inner.stages ≠ [])
    {completed : Level} (hcomplete : level.complete opener inner = .ok completed) :
    completed.Sound before := by
  cases opener with
  | function kind name => exact h.complete_function hinner hstages hcomplete
  | capture name =>
      cases hcomplete
      exact h.complete_capture hopener hinner hstages

end Level.Sound

/-- The selectors around the one that is being read are sound, and these are the ways to its
start. -/
inductive Nested : List (List String) → List (Level × Opener) → Prop
  | outermost : Nested [[]] []
  | inside {before : List (List String)} {parent : Level} {opener : Opener}
      {outer : List (Level × Opener)} (hparent : parent.Sound before)
      (hopener : opener.WellFormed) (houter : Nested before outer) :
      Nested (opener.ways (parent.reached before)) ((parent, opener) :: outer)

theorem wellFormed_of_assemble {before : List (List String)} {level : Level}
    {outer : List (Level × Opener)} {lexemes : Lexemes} {selector : Selector}
    (hlevel : level.Sound before) (houter : Nested before outer) (hlexemes : lexemes.WellFormed)
    (h : assemble level outer lexemes = .ok selector) : selector.WellFormed := by
  induction lexemes generalizing before level outer with
  | fault f => cases h
  | finish =>
      unfold assemble at h
      split at h
      · cases h
      · next hstages =>
        cases houter with
        | inside => cases h
        | outermost =>
            cases h
            exact ⟨hlevel.alternatives_filled (by simpa using hstages),
              hlevel.alternatives_wellFormed,
              hlevel.alternatives_scoped (List.mem_singleton_self [])⟩
  | next lexeme place rest ih =>
      obtain ⟨hlexeme, hrest⟩ := hlexemes
      unfold assemble at h
      -- every lexeme leads to a sound level again, or the text is refused
      cases lexeme with
      | stage stage =>
          obtain ⟨hplain, hstage⟩ := hlexeme
          exact ih (hlevel.add hstage hplain.ways_eq fun way _ => hplain.scoped way) houter hrest h
      | bind name =>
          exact ih (hlevel.addBinding (.bind hlexeme) rfl fun _ _ => trivial) houter hrest h
      | get name =>
          dsimp only at h
          split at h
          · next hname =>
            exact ih (hlevel.add (.get hlexeme) rfl ((hlevel.scope name).mp hname)) houter hrest h
          · cases h
      | openFunction kind name =>
          exact ih (hlevel.inside (.function kind name)) (.inside hlevel trivial houter) hrest h
      | openCapture name =>
          exact ih (hlevel.inside (.capture name)) (.inside hlevel hlexeme houter) hrest h
      | comma =>
          dsimp only at h
          split at h
          · cases h
          · next hstages =>
            exact ih (hlevel.nextAlternative (by simpa using hstages)) houter hrest h
      | close =>
          dsimp only at h
          split at h
          · cases h
          · next hstages =>
            cases houter with
            | outermost => cases h
            | inside hparent hopener houter =>
                dsimp only at h
                split at h
                · cases h
                · next completed hcomplete =>
                  exact ih (hparent.complete hopener hlevel (by simpa using hstages) hcomplete)
                    houter hrest h

theorem Selector.wellFormed_of_parse {text : String} {selector : Selector}
    (h : parse text = .ok selector) : selector.WellFormed := by
  unfold parse at h
  split at h
  · cases h
  · next parsed hparsed =>
    cases h
    exact wellFormed_of_assemble (.start Tracks.nil) .outermost (Lexemes.wellFormed_of _) hparsed

end SchemaQuery

import SchemaQuery.Proofs.DepthFirst
import SchemaQuery.Proofs.RootMemory
import SchemaQuery.Proofs.TraitDefinitions
import SchemaQuery.Selector.Query

namespace SchemaQuery

theorem Stage.induction_held {P : Stage → Prop}
    (h : ∀ stage : Stage, (∀ inner ∈ stage.held, ∀ pipeline ∈ inner, ∀ s ∈ pipeline, P s) →
      P stage) (stage : Stage) : P stage := by
  induction stage using Stage.inductionOn with
  | function kind args ih => exact h _ ih
  | capture name selector ih => exact h _ (List.forall_mem_singleton.mpr ih)
  | type | «attribute» | neighbor | bind | get => exact h _ (List.forall_mem_nil _)

section References

variable {selector inner : Selector} {stage : Stage} {trait : ShapeId} {place : Place}

theorem mem_pipelineTraits {pipeline : Pipeline} :
    trait ∈ pipelineTraits pipeline ↔ ∃ stage ∈ pipeline, trait ∈ stage.traits := by
  induction pipeline with
  | nil => simp [pipelineTraits]
  | cons stage rest ih => simp [pipelineTraits, ih]

theorem mem_selectorTraits :
    trait ∈ selectorTraits selector ↔
      ∃ pipeline ∈ selector, ∃ stage ∈ pipeline, trait ∈ stage.traits := by
  induction selector with
  | nil => simp [selectorTraits]
  | cons pipeline rest ih => simp [selectorTraits, ih, mem_pipelineTraits]

theorem mem_argumentTraits {args : List Selector} :
    trait ∈ argumentTraits args ↔ ∃ selector ∈ args, trait ∈ selectorTraits selector := by
  induction args with
  | nil => simp [argumentTraits]
  | cons selector rest ih => simp [argumentTraits, ih]

theorem Stage.mem_traits :
    trait ∈ stage.traits ↔
      (∃ path comparison, stage = .attribute ⟨.trait trait path, comparison⟩) ∨
        ∃ inner ∈ stage.held, trait ∈ selectorTraits inner := by
  cases stage with
  | «attribute» filter =>
      obtain ⟨key, comparison⟩ := filter
      cases key with
      | trait id path => simp [traits, held, eq_comm]
      | id | idNamespace | idName | idMember | service | serviceVersion => simp [traits, held]
  | function kind args => simp [traits, held, mem_argumentTraits]
  | capture name selector => simp [traits, held]
  | type | neighbor | bind | get => simp [traits, held]

def Selector.LooksAt (selector : Selector) (trait : ShapeId) : Prop :=
  ∃ place path comparison,
    selector.stageAt? place = some (.attribute ⟨.trait trait path, comparison⟩)

mutual

theorem Selector.mem_traits_of_selectorAt? {selector : Selector} :
    ∀ {place : Place} {inner : Selector}, selector.selectorAt? place = some inner →
      trait ∈ selectorTraits inner → trait ∈ selectorTraits selector
  | [], _, h, htrait => by
    cases h
    exact htrait
  | _ :: _, inner, h, htrait => by
    rw [selectorAt?] at h
    obtain ⟨stage, hstage, hheld⟩ := Option.bind_eq_some_iff.mp h
    refine mem_traits_of_stageAt? hstage (Stage.mem_traits.mpr (.inr ?_))
    exact ⟨inner, List.mem_of_getElem? hheld, htrait⟩

theorem Selector.mem_traits_of_stageAt? {selector : Selector} :
    ∀ {place : Place} {stage : Stage}, selector.stageAt? place = some stage →
      trait ∈ stage.traits → trait ∈ selectorTraits selector
  | _ :: _ :: _, stage, h, htrait => by
    rw [stageAt?] at h
    obtain ⟨inner, hinner, h⟩ := Option.bind_eq_some_iff.mp h
    obtain ⟨pipeline, hpipeline, hstage⟩ := Option.bind_eq_some_iff.mp h
    refine mem_traits_of_selectorAt? hinner (mem_selectorTraits.mpr ?_)
    exact ⟨pipeline, List.mem_of_getElem? hpipeline, stage, List.mem_of_getElem? hstage, htrait⟩
  | [], _, h, _ => by cases h
  | [_], _, h, _ => by cases h

end

theorem Selector.looksAt_of_stageAt? (hplace : selector.stageAt? place = some stage)
    (htrait : trait ∈ stage.traits) : selector.LooksAt trait := by
  induction stage using Stage.induction_held generalizing place with
  | h stage ih =>
      rcases Stage.mem_traits.mp htrait with ⟨path, comparison, rfl⟩ | ⟨inner, hinner, htrait⟩
      · exact ⟨place, path, comparison, hplace⟩
      · obtain ⟨pipeline, hpipeline, next, hnext, htrait⟩ := mem_selectorTraits.mp htrait
        obtain ⟨k, hk⟩ := List.getElem?_of_mem hinner
        obtain ⟨p, hp⟩ := List.getElem?_of_mem hpipeline
        obtain ⟨i, hi⟩ := List.getElem?_of_mem hnext
        exact ih inner hinner pipeline hpipeline next hnext
          (stageAt?_cons (selectorAt?_cons hplace hk) hp hi) htrait

theorem Selector.mem_traitReferences :
    trait ∈ selector.traitReferences.entries ↔ selector.LooksAt trait := by
  rw [traitReferences, SortedSet.mem_ofList]
  constructor
  · intro htrait
    obtain ⟨pipeline, hpipeline, stage, hstage, htrait⟩ := mem_selectorTraits.mp htrait
    obtain ⟨p, hp⟩ := List.getElem?_of_mem hpipeline
    obtain ⟨i, hi⟩ := List.getElem?_of_mem hstage
    have hwhole : selector.selectorAt? [] = some selector := rfl
    exact looksAt_of_stageAt? (stageAt?_cons hwhole hp hi) htrait
  · rintro ⟨place, path, comparison, hplace⟩
    exact mem_traits_of_stageAt? hplace (List.mem_singleton_self trait)

end References

/-- The first trait in id order that a selector looks at although the model does not define it. -/
structure Selector.FirstUndefined (selector : Selector) (m : Model) (trait : ShapeId) : Prop where
  looksAt : selector.LooksAt trait
  undefined : ¬ m.DefinesTrait trait
  first : ∀ other, selector.LooksAt other → ¬ m.DefinesTrait other →
    (compare trait other).isLE = true

namespace Query

variable {m : Model} {text : String}

theorem definesTrait_iff {trait : ShapeId} : definesTrait m trait = true ↔ m.DefinesTrait trait := by
  unfold definesTrait Model.DefinesTrait
  cases m.find? trait <;> simp

theorem find?_traitReferences_eq_some_iff {selector : Selector} {trait : ShapeId} :
    selector.traitReferences.entries.find? (fun trait => !definesTrait m trait) = some trait ↔
      selector.FirstUndefined m trait := by
  have hfails {trait : ShapeId} : (!definesTrait m trait) = true ↔ ¬ m.DefinesTrait trait := by
    rw [Bool.not_eq_true', ← Bool.not_eq_true, definesTrait_iff]
  simp only [SortedSet.find?_entries_eq_some_iff, Selector.mem_traitReferences, hfails]
  constructor
  · rintro ⟨hlooks, hundefined, hfirst⟩
    exact ⟨hlooks, hundefined, hfirst⟩
  · rintro ⟨hlooks, hundefined, hfirst⟩
    exact ⟨hlooks, hundefined, hfirst⟩

theorem find?_traitReferences_eq_none_iff {selector : Selector} :
    selector.traitReferences.entries.find? (fun trait => !definesTrait m trait) = none ↔
      ∀ trait, selector.LooksAt trait → m.DefinesTrait trait := by
  simp only [List.find?_eq_none, Selector.mem_traitReferences, Bool.not_eq_true', Bool.not_eq_false,
    definesTrait_iff]

/-- A text is read for a model exactly if it is read at all and the model defines every trait that a
filter looks at, wherever the filter stands. Otherwise the reason is that of reading, or the first of
the traits that are not defined. -/
theorem compileFor_outcomes (text : String) (m : Model) :
    (∀ query, compileFor text m = .ok query ↔
      parse text = .ok query ∧
        ∀ trait, query.selector.LooksAt trait → m.DefinesTrait trait) ∧
    ∀ e, compileFor text m = .error e ↔
      parse text = .error e ∨
        ∃ query trait, parse text = .ok query ∧ query.selector.FirstUndefined m trait ∧
          e = .reference (.unknownTrait trait) := by
  unfold compileFor
  cases parse text with
  | error e => simp
  | ok query =>
      dsimp only
      cases hfind : query.selector.traitReferences.entries.find? fun trait =>
          !definesTrait m trait with
      | some trait =>
          have hfirst := find?_traitReferences_eq_some_iff.mp hfind
          constructor
          · intro other
            constructor
            · rintro ⟨⟩
            · rintro ⟨⟨⟩, hdefined⟩
              exact absurd (hdefined trait hfirst.looksAt) hfirst.undefined
          · intro e
            constructor
            · rintro ⟨⟩
              exact .inr ⟨query, trait, rfl, hfirst, rfl⟩
            · rintro (⟨⟨⟩⟩ | ⟨_, other, ⟨⟩, hother, rfl⟩)
              rw [find?_traitReferences_eq_some_iff.mpr hother] at hfind
              cases hfind
              rfl
      | none =>
          have hdefined := find?_traitReferences_eq_none_iff.mp hfind
          constructor
          · intro other
            refine ⟨?_, And.left⟩
            rintro ⟨⟩
            exact ⟨rfl, hdefined⟩
          · intro e
            constructor
            · rintro ⟨⟩
            · rintro (⟨⟨⟩⟩ | ⟨_, trait, ⟨⟩, hfirst, -⟩)
              exact absurd (hdefined trait hfirst.looksAt) hfirst.undefined

def oneTrait : List Declaration :=
  [(Declaration.string ⟨"a", "T", none⟩).annotate .traitMarker, .string ⟨"a", "U", none⟩]

/-- The trait `A`, which is not there at all, comes before `U` in id order, although the filter on it
stands later in the text and deeper. -/
theorem compileFor_outcomes_oneTrait :
    ∃ m, Model.build ⟨.error, false, false⟩ oneTrait = .ok m ∧
      compileFor ":not([trait|a#U]) $x(:is([trait|a#T], [trait|a#A]))" m =
        .error (.reference (.unknownTrait ⟨"a", "A", none⟩)) ∧
      ∃ query, compileFor ":not([trait|a#T|k = 'v'])" m = .ok query ∧
        query.selector.LooksAt ⟨"a", "T", none⟩ := by
  have hdefines : (Model.build ⟨.error, false, false⟩ oneTrait).map (fun m =>
      (definesTrait m ⟨"a", "T", none⟩, definesTrait m ⟨"a", "A", none⟩)) =
      .ok (true, false) := by
    simp only [Model.build, Declarations.resolveAll, Declarations.resolutionOrder,
      DepthFirst.order_eq_workFor]
    decide +kernel
  have hnested : (parse ":not([trait|a#U]) $x(:is([trait|a#T], [trait|a#A]))").map (fun query =>
      query.selector.traitReferences.entries) =
      .ok [⟨"a", "A", none⟩, ⟨"a", "T", none⟩, ⟨"a", "U", none⟩] := by decide +kernel
  have hplain : (parse ":not([trait|a#T|k = 'v'])").map (fun query =>
      query.selector.traitReferences.entries) = .ok [⟨"a", "T", none⟩] := by decide +kernel
  obtain ⟨m, hbuild, hdefines⟩ := map_eq_ok_iff.mp hdefines
  obtain ⟨hT, hA⟩ := Prod.mk.inj hdefines
  obtain ⟨nested, hnested, hentries⟩ := map_eq_ok_iff.mp hnested
  obtain ⟨plain, hplain, hentry⟩ := map_eq_ok_iff.mp hplain
  obtain ⟨-, hrefused⟩ := compileFor_outcomes ":not([trait|a#U]) $x(:is([trait|a#T], [trait|a#A]))" m
  obtain ⟨haccepted, -⟩ := compileFor_outcomes ":not([trait|a#T|k = 'v'])" m
  refine ⟨m, hbuild, (hrefused _).mpr ?_, plain, (haccepted plain).mpr ⟨hplain, ?_⟩, ?_⟩
  · have hfirst : nested.selector.FirstUndefined m ⟨"a", "A", none⟩ := by
      rw [← find?_traitReferences_eq_some_iff, hentries, List.find?_cons, hA]
      rfl
    exact .inr ⟨nested, _, hnested, hfirst, rfl⟩
  · rw [← find?_traitReferences_eq_none_iff, hentry, List.find?_cons, hT]
    rfl
  · rw [← Selector.mem_traitReferences, hentry]
    exact List.mem_singleton_self _

end Query

end SchemaQuery

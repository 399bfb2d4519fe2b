import SchemaQuery.Proofs.Outcomes
import SchemaQuery.Proofs.TextPaths

namespace SchemaQuery

/-- Evaluation of stages from a shape comes to a stage in them, or in a selector that one of them
holds, with certain bindings at a certain shape. Whatever a stage hands on comes to the stages after
it. Arguments and captures are evaluated where their stage is, and the argument of `:root` from
every shape of the model without bindings. -/
inductive Visits (m : Model) : Bindings → Shape → Pipeline → Stage → Bindings → Shape → Prop
  | here {bindings : Bindings} {shape : Shape} {stage : Stage} {rest : Pipeline} :
      Visits m bindings shape (stage :: rest) stage bindings shape
  | later {bindings found : Bindings} {shape next : Shape} {stage visited : Stage}
      {rest : Pipeline} (o : Outcome) (ho : o ∈ (stage.flow m).handed bindings shape)
      (h : Visits m o.bindings o.shape rest visited found next) :
      Visits m bindings shape (stage :: rest) visited found next
  | argument {bindings found : Bindings} {shape next : Shape} {kind : FunctionKind}
      {args : List Selector} {selector : Selector} {pipeline rest : Pipeline} {visited : Stage}
      (hkind : kind ≠ .root) (hselector : selector ∈ args) (hpipeline : pipeline ∈ selector)
      (h : Visits m bindings shape pipeline visited found next) :
      Visits m bindings shape (.function kind args :: rest) visited found next
  | root {bindings found : Bindings} {shape start next : Shape} {args : List Selector}
      {selector : Selector} {pipeline rest : Pipeline} {visited : Stage}
      (hstart : start ∈ m.shapes.entries) (hselector : selector ∈ args)
      (hpipeline : pipeline ∈ selector) (h : Visits m ∅ start pipeline visited found next) :
      Visits m bindings shape (.function .root args :: rest) visited found next
  | captured {bindings found : Bindings} {shape next : Shape} {name : String}
      {selector : Selector} {pipeline rest : Pipeline} {visited : Stage}
      (hpipeline : pipeline ∈ selector) (h : Visits m bindings shape pipeline visited found next) :
      Visits m bindings shape (.capture name selector :: rest) visited found next

def Selector.Visits (selector : Selector) (m : Model) (shape : Shape) (visited : Stage)
    (found : Bindings) (next : Shape) : Prop :=
  ∃ pipeline ∈ selector, SchemaQuery.Visits m ∅ shape pipeline visited found next

namespace Bindings

def Binds (bindings : Bindings) (names : List String) : Prop :=
  ∀ name ∈ names, bindings.contains name = true

variable {bindings : Bindings}

theorem contains_bind {name other : String} {shapes : IdSet} :
    (bindings.bind name shapes).contains other = true ↔
      other = name ∨ bindings.contains other = true := by
  simp only [Sorted.contains_iff, bind, Sorted.mem_insert]
  constructor
  · rintro ⟨entry, rfl | ⟨hentry, -⟩, rfl⟩
    · exact .inl rfl
    · exact .inr ⟨entry, hentry, rfl⟩
  · rintro (rfl | ⟨entry, hentry, rfl⟩)
    · exact ⟨(other, shapes), .inl rfl, rfl⟩
    · by_cases heq : entry.1 = name
      · exact ⟨(name, shapes), .inl rfl, heq.symm⟩
      · exact ⟨entry, .inr ⟨hentry, heq⟩, rfl⟩

theorem Binds.bind {names : List String} (h : bindings.Binds names) (name : String)
    (shapes : IdSet) : (bindings.bind name shapes).Binds (names ++ [name]) := by
  intro other hother
  rw [contains_bind]
  rcases List.mem_append.mp hother with hother | hother
  · exact .inr (h other hother)
  · exact .inl (List.mem_singleton.mp hother)

end Bindings

/-- Every outcome binds at least the names of one of some ways, beside all that was bound before. -/
def BindsAlong (ways : List (List String)) (outcomes : Bindings → Shape → List Outcome) : Prop :=
  ∀ bindings shape, ∀ o ∈ outcomes bindings shape,
    ∃ way ∈ ways, ∀ bound, bindings.Binds bound → o.bindings.Binds (bound ++ way)

namespace BindsAlong

variable {m : Model}

theorem of_eq {outcomes : Bindings → Shape → List Outcome}
    (h : ∀ bindings shape, ∀ o ∈ outcomes bindings shape, o.bindings = bindings) :
    BindsAlong [[]] outcomes := by
  intro bindings shape o ho
  refine ⟨[], List.mem_singleton_self [], ?_⟩
  intro bound hbound
  rwa [List.append_nil, h bindings shape o ho]

theorem of_bind {outcomes : Bindings → Shape → List Outcome} (name : String)
    (h : ∀ bindings shape, ∀ o ∈ outcomes bindings shape,
      ∃ shapes, o.bindings = bindings.bind name shapes) : BindsAlong [[name]] outcomes := by
  intro bindings shape o ho
  obtain ⟨shapes, heq⟩ := h bindings shape o ho
  refine ⟨[name], List.mem_singleton_self [name], ?_⟩
  intro bound hbound
  rw [heq]
  exact hbound.bind name shapes

theorem pipeline {pipeline : Pipeline}
    (h : ∀ stage ∈ pipeline, BindsAlong stage.ways (stage.outcomes m)) :
    BindsAlong (pipelineWays pipeline) fun bindings shape =>
      pipelineOutcomes m bindings shape pipeline := by
  induction pipeline with
  | nil => exact of_eq (by simp [pipelineOutcomes])
  | cons stage rest ih =>
      obtain ⟨hstage, hrest⟩ := List.forall_mem_cons.mp h
      intro bindings shape o ho
      obtain ⟨middle, hmiddle, ho⟩ := List.mem_flatMap.mp ho
      obtain ⟨way, hway, hbinds⟩ := hstage bindings shape middle hmiddle
      obtain ⟨next, hnext, hbinds'⟩ := ih hrest middle.bindings middle.shape o ho
      refine ⟨way ++ next, mem_joinWays.mpr ⟨way, hway, next, hnext, rfl⟩, ?_⟩
      intro bound hbound
      rw [← List.append_assoc]
      exact hbinds' _ (hbinds bound hbound)

theorem selector {selector : Selector}
    (h : ∀ pipeline ∈ selector, ∀ stage ∈ pipeline, BindsAlong stage.ways (stage.outcomes m)) :
    BindsAlong (selectorWays selector) (selector.outcomes m) := by
  induction selector with
  | nil =>
      intro bindings shape o ho
      cases ho
  | cons first rest ih =>
      obtain ⟨hfirst, hrest⟩ := List.forall_mem_cons.mp h
      intro bindings shape o ho
      rw [selectorWays]
      rcases List.mem_append.mp ho with ho | ho
      · obtain ⟨way, hway, hbinds⟩ := BindsAlong.pipeline hfirst bindings shape o ho
        exact ⟨way, List.mem_append_left _ hway, hbinds⟩
      · obtain ⟨way, hway, hbinds⟩ := ih hrest bindings shape o ho
        exact ⟨way, List.mem_append_right _ hway, hbinds⟩

theorem arguments {args : List Selector}
    (h : ∀ selector ∈ args, ∀ pipeline ∈ selector, ∀ stage ∈ pipeline,
      BindsAlong stage.ways (stage.outcomes m)) :
    BindsAlong (argumentWays args) fun bindings shape =>
      argumentOutcomes m bindings shape args := by
  induction args with
  | nil =>
      intro bindings shape o ho
      cases ho
  | cons first rest ih =>
      obtain ⟨hfirst, hrest⟩ := List.forall_mem_cons.mp h
      intro bindings shape o ho
      rw [argumentWays]
      rcases List.mem_append.mp ho with ho | ho
      · obtain ⟨way, hway, hbinds⟩ := BindsAlong.selector hfirst bindings shape o ho
        exact ⟨way, List.mem_append_left _ hway, hbinds⟩
      · obtain ⟨way, hway, hbinds⟩ := ih hrest bindings shape o ho
        exact ⟨way, List.mem_append_right _ hway, hbinds⟩

end BindsAlong

theorem Stage.bindsAlong_ways (m : Model) (stage : Stage) :
    BindsAlong stage.ways (stage.outcomes m) := by
  induction stage using Stage.inductionOn with
  | type | «attribute» | neighbor | get =>
      refine .of_eq ?_
      intro bindings shape o ho
      simp only [outcomes] at ho
      grind
  | bind name =>
      refine .of_bind name ?_
      intro bindings shape o ho
      cases List.mem_singleton.mp ho
      exact ⟨_, rfl⟩
  | capture name selector _ =>
      refine .of_bind name ?_
      intro bindings shape o ho
      cases List.mem_singleton.mp ho
      exact ⟨_, rfl⟩
  | function kind args ih =>
      cases kind with
      | is => exact .arguments ih
      -- only `:is` hands on what its arguments bind
      | not | test | «in» | root =>
          refine .of_eq ?_
          intro bindings shape o ho
          simp only [outcomes] at ho
          grind

/-- Evaluation comes to a use of a variable only with the variable bound, if the stages are scoped
and what they count on is bound at their start. -/
theorem PipelineScoped.contains_of_visits {m : Model} {bound : List String} {pipeline : Pipeline}
    {bindings found : Bindings} {shape next : Shape} {name : String}
    (hscoped : PipelineScoped bound pipeline) (hbound : bindings.Binds bound)
    (h : Visits m bindings shape pipeline (.get name) found next) :
    found.contains name = true := by
  generalize hvisited : Stage.get name = visited at h
  induction h generalizing bound with
  | here =>
      subst hvisited
      exact hbound name hscoped.1
  | @later _ _ _ _ stage _ _ o ho _ ih =>
      -- each outcome binds what some way through the stage binds, and all ways are scoped
      rw [(stage.flow_delivers m).handed_eq] at ho
      obtain ⟨way, hway, hbinds⟩ := stage.bindsAlong_ways m _ _ o ho
      exact ih (hscoped.2 way hway) (hbinds bound hbound) hvisited
  | @argument _ _ _ _ kind args _ _ _ _ hkind hselector hpipeline _ ih =>
      have hargs : ArgumentsScoped (if kind = .root then [] else bound) args := hscoped.1
      rw [if_neg hkind, argumentsScoped_iff] at hargs
      exact ih (selectorScoped_iff.mp (hargs _ hselector) _ hpipeline) hbound hvisited
  | root _ hselector hpipeline _ ih =>
      -- evaluation and scoping both start from no bindings here
      have hargs := argumentsScoped_iff.mp hscoped.1 _ hselector
      exact ih (selectorScoped_iff.mp hargs _ hpipeline) (fun _ hname => absurd hname List.not_mem_nil)
        hvisited
  | captured hpipeline _ ih =>
      exact ih (selectorScoped_iff.mp hscoped.1 _ hpipeline) hbound hvisited

theorem Assembly.step_get_eq_error_iff {reached : Assembly} {lexemes left : Lexemes}
    {read : List Lexeme} (h : Reads start lexemes read reached left) (name : String)
    (place : List Char) :
    reached.step place (.get name) = .error (.reference (.unboundVariable name)) ↔
      ∃ names, TextPath read names ∧ name ∉ names := by
  have hstep : reached.step place (.get name) = .error (.reference (.unboundVariable name)) ↔
      name ∉ reached.level.scope := by
    rw [step]
    split
    · next hname => simp [hname]
    · next hname => simp [hname]
  rw [hstep, mem_scope_iff h]
  push Not
  rfl

theorem Selector.parse_eq_error_of_step {text : String} {reached : Assembly} {read : List Lexeme}
    {lexeme : Lexeme} {place : List Char} {rest : Lexemes} {e : ReferenceError}
    (h : Assembly.Reads .start (.of text.toList) read reached (.next lexeme place rest))
    (hstep : reached.step place lexeme = .error (.reference e)) :
    parse text = .error (.reference e) := by
  have hparse : assemble (.start []) [] (.of text.toList) = .error (.reference e) := by
    refine h.assemble_eq.trans ?_
    rw [Assembly.assemble_next, hstep]
  rw [parse, hparse]
  rfl

/-- In a selector that is parsed, evaluation from any shape of any model comes to no use of a
variable that is not bound. A use to which the parser comes is refused exactly if some path to it
does not bind the variable. -/
theorem Selector.variables_scoped :
    (∀ text selector, parse text = .ok selector → ∀ m shape name found next,
      selector.Visits m shape (.get name) found next → found.contains name = true) ∧
    ∀ text read reached name place rest,
      Assembly.Reads .start (.of text.toList) read reached (.next (.get name) place rest) →
      (reached.step place (.get name) = .error (.reference (.unboundVariable name)) ↔
        ∃ names, TextPath read names ∧ name ∉ names) ∧
      (reached.step place (.get name) = .error (.reference (.unboundVariable name)) →
        parse text = .error (.reference (.unboundVariable name))) := by
  constructor
  · rintro text selector hparse m shape name found next ⟨pipeline, hpipeline, hvisits⟩
    have hscoped := selectorScoped_iff.mp (wellFormed_of_parse hparse).scoping pipeline hpipeline
    exact hscoped.contains_of_visits (fun _ hname => absurd hname List.not_mem_nil) hvisits
  · intro text read reached name place rest h
    exact ⟨Assembly.step_get_eq_error_iff h name place, fun hstep => parse_eq_error_of_step h hstep⟩

def Selector.boundByEither : Selector :=
  [[.type (.exact (.aggregate .structure)), .capture "x" [[.neighbor ⟨.forward, none⟩]],
    .function .is [[[.bind "y"]], [[.neighbor ⟨.forward, none⟩, .bind "y"]]],
    .function .not [[[.get "y", .neighbor ⟨.reverse, none⟩]]], .get "x"]]

def Shape.bare : Shape := ⟨⟨"a", "S", none⟩, .aggregate .structure [], ∅, []⟩

def Bindings.ofBare : Bindings :=
  ((∅ : Bindings).bind "x" ∅).bind "y" (.ofList [Shape.bare.id])

theorem Selector.visits_boundByEither :
    boundByEither.Visits default .bare (.get "y") .ofBare .bare := by
  refine ⟨_, List.mem_singleton_self _, ?_⟩
  refine .later ⟨∅, .bare⟩ (by decide) ?_
  refine .later ⟨(∅ : Bindings).bind "x" ∅, .bare⟩ (by decide) ?_
  refine .later ⟨.ofBare, .bare⟩ (by decide) ?_
  exact .argument (by decide) List.mem_cons_self List.mem_cons_self .here

def Lexeme.halfBound : List Lexeme :=
  [.openFunction .is "is", .bind "x", .comma, .stage (.type .any), .close]

theorem textPath_halfBound : TextPath Lexeme.halfBound [] := by
  have hearlier : Earlier [.bind "x", .comma] :=
    .inr ⟨[.bind "x"], (TextWay.nil.bind "x").balanced, rfl⟩
  have hway : TextWay Lexeme.halfBound [] :=
    TextWay.nil.through "is" hearlier (TextWay.nil.stage (.type .any)) (.inl rfl)
  exact .outermost (.inl rfl) hway

theorem exists_reads_halfBound :
    ∃ reached place, Assembly.Reads .start (.of ":is($x, *) $\x7bx\x7d".toList) Lexeme.halfBound
      reached (.next (.get "x") place .finish) := by
  have hlexemes : Lexemes.of ":is($x, *) $\x7bx\x7d".toList =
      .next (.openFunction .is "is") ":is($x, *) $\x7bx\x7d".toList
        (.next (.bind "x") "$x, *) $\x7bx\x7d".toList
          (.next .comma ", *) $\x7bx\x7d".toList
            (.next (.stage (.type .any)) "*) $\x7bx\x7d".toList
              (.next .close ") $\x7bx\x7d".toList
                (.next (.get "x") "$\x7bx\x7d".toList .finish))))) := by with_unfolding_all rfl
  rw [hlexemes]
  exact ⟨_, _, .step rfl (.step rfl (.step rfl (.step rfl (.step rfl .refl))))⟩

theorem Selector.variables_scoped_boundByEither_halfBound :
    parse "structure $x(>) :is($y, > $y) :not($\x7by\x7d <) $\x7bx\x7d" = .ok boundByEither ∧
    boundByEither.Visits default .bare (.get "y") .ofBare .bare ∧
    Bindings.ofBare.contains "y" = true ∧
    TextPath Lexeme.halfBound [] ∧
    parse ":is($x, *) $\x7bx\x7d" = .error (.reference (.unboundVariable "x")) := by
  have hparse : parse "structure $x(>) :is($y, > $y) :not($\x7by\x7d <) $\x7bx\x7d" =
      .ok boundByEither := by with_unfolding_all rfl
  have hvisits := visits_boundByEither
  have hbound := variables_scoped.1 _ _ hparse _ _ _ _ _ hvisits
  obtain ⟨reached, place, hreads⟩ := exists_reads_halfBound
  obtain ⟨hrefused, hreported⟩ := variables_scoped.2 _ _ _ _ _ _ hreads
  have hstep := hrefused.mpr ⟨[], textPath_halfBound, List.not_mem_nil⟩
  exact ⟨hparse, hvisits, hbound, textPath_halfBound, hreported hstep⟩

end SchemaQuery

import SchemaQuery.Proofs.FollowingText
import SchemaQuery.Proofs.TextPaths

/-!
Texts put together from accepted texts. The parser reads an accepted text in the same way wherever
it stands: no name that is bound there becomes unbound by what comes before the text or around it.
-/

namespace SchemaQuery

/-- Alternatives behind earlier ones, the first of them continuing an alternative that has been
begun. -/
def Selector.glue (earlier : Selector) (front : Pipeline) : Selector → Selector
  | [] => earlier
  | first :: more => earlier ++ (front ++ first) :: more

theorem Selector.glue_nil_nil (selector : Selector) : glue [] [] selector = selector := by
  cases selector <;> rfl

theorem Selector.glue_nil {selector : Selector} (h : selector ≠ []) (earlier : Selector) :
    glue earlier [] selector = earlier ++ selector := by
  cases selector with
  | nil => exact absurd rfl h
  | cons first more => rfl

namespace Level

def stagesBehind (front : Pipeline) (level : Level) : Pipeline :=
  match level.finished with
  | [] => front ++ level.stages
  | _ :: _ => level.stages

theorem glue_alternatives (earlier : Selector) (front : Pipeline) (level : Level) :
    Selector.glue earlier front level.alternatives =
      Selector.glue earlier front level.finished ++ [level.stagesBehind front] := by
  unfold alternatives stagesBehind
  cases level.finished with
  | nil => rfl
  | cons first more => simp [Selector.glue]

theorem stagesBehind_ne_nil {level : Level} (h : level.stages ≠ []) (front : Pipeline) :
    level.stagesBehind front ≠ [] := by
  unfold stagesBehind
  split
  · exact List.append_ne_nil_of_right_ne_nil front h
  · exact h

/-- A selector is read behind other alternatives and stages, where more names may be bound. -/
structure Continues (earlier : Selector) (front : Pipeline) (level within : Level) : Prop where
  entry : level.entry ⊆ within.entry
  scope : level.scope ⊆ within.scope
  finished : within.finished = Selector.glue earlier front level.finished
  stages : within.stages = level.stagesBehind front

def CommonWithin (level within : Level) : Prop :=
  ∀ common, within.common = some common → ∃ before, level.common = some before ∧ before ⊆ common

theorem boundByAll_subset {level within : Level} (hscope : level.scope ⊆ within.scope)
    (hcommon : level.CommonWithin within) : level.boundByAll ⊆ within.boundByAll := by
  intro name hname
  obtain ⟨hbound, hmem⟩ := mem_boundByAll.mp hname
  refine mem_boundByAll.mpr ⟨?_, hscope hmem⟩
  intro common h
  obtain ⟨before, hbefore, hsub⟩ := hcommon common h
  exact hsub (hbound before hbefore)

theorem CommonWithin.start (entry entry' : Scope) :
    (Level.start entry).CommonWithin (Level.start entry') := by
  rintro common ⟨⟩

theorem CommonWithin.nextAlternative {level within : Level} (h : level.CommonWithin within)
    (hscope : level.scope ⊆ within.scope) :
    level.nextAlternative.CommonWithin within.nextAlternative := by
  rintro _ ⟨⟩
  exact ⟨level.boundByAll, rfl, boundByAll_subset hscope h⟩

namespace Continues

variable {earlier : Selector} {front : Pipeline} {level within : Level}

theorem start (level : Level) :
    Continues level.finished level.stages (Level.start []) level where
  entry := List.nil_subset _
  scope := List.nil_subset _
  finished := rfl
  stages := (List.append_nil _).symm

theorem inside (h : level.scope ⊆ within.scope) (opener : Opener) :
    Continues [] [] (level.inside opener) (within.inside opener) := by
  have hscope : opener.scopeInside level ⊆ opener.scopeInside within := by
    cases opener with
    | capture name => exact h
    | function kind name =>
        by_cases hkind : kind = .root
        · simp [Opener.scopeInside, hkind]
        · simpa [Opener.scopeInside, hkind] using h
  rw [inside_eq_start, inside_eq_start]
  exact ⟨hscope, hscope, rfl, rfl⟩

theorem alternatives (h : Continues earlier front level within) :
    within.alternatives = Selector.glue earlier front level.alternatives := by
  rw [glue_alternatives, Level.alternatives, h.finished, h.stages]

theorem stages_ne_nil (h : Continues earlier front level within) (hstages : level.stages ≠ []) :
    within.stages ≠ [] :=
  h.stages ▸ stagesBehind_ne_nil hstages front

theorem extend (h : Continues earlier front level within) (stages : Pipeline)
    {scope scope' : Scope} (hscope : scope ⊆ scope') :
    Continues earlier front (level.extend stages scope) (within.extend stages scope') where
  entry := h.entry
  scope := hscope
  finished := h.finished
  stages := by
    have hstages := h.stages
    unfold stagesBehind at hstages ⊢
    rw [stages_extend, hstages]
    change _ = match level.finished with
      | [] => front ++ (level.stages ++ stages)
      | _ :: _ => level.stages ++ stages
    split
    · exact List.append_assoc _ _ _
    · rfl

theorem nextAlternative (h : Continues earlier front level within) :
    Continues earlier front level.nextAlternative within.nextAlternative where
  entry := h.entry
  scope := h.entry
  finished := h.alternatives
  stages := by
    unfold stagesBehind
    split
    next hnil => exact absurd hnil (List.append_ne_nil_of_right_ne_nil _ (List.cons_ne_nil _ _))
    next => rfl

theorem insert_subset (h : level.scope ⊆ within.scope) (name : String) :
    level.scope.insert name ⊆ within.scope.insert name := by
  intro other hother
  rw [List.mem_insert_iff] at hother ⊢
  exact hother.imp_right fun hmem => h hmem

end Continues

theorem exists_complete {level inner inner' completed : Level} (within : Level) {opener : Opener}
    (hinner : inner.Continues [] [] inner') (hcommon : inner.CommonWithin inner')
    (hcomplete : level.complete opener inner = .ok completed) :
    ∃ completed', within.complete opener inner' = .ok completed' ∧
      (∀ earlier front, level.Continues earlier front within →
        completed.Continues earlier front completed') ∧
      (level.CommonWithin within → completed.CommonWithin completed') := by
  have hargs : inner'.alternatives = inner.alternatives := by
    rw [hinner.alternatives, Selector.glue_nil_nil]
  cases opener with
  | capture name =>
      cases hcomplete
      rw [Level.complete, hargs]
      exact ⟨_, rfl, fun _ _ h => h.extend [.capture name inner.alternatives]
        (Continues.insert_subset h.scope name), id⟩
  | function kind name =>
      obtain ⟨harity, rfl⟩ := complete_function_eq_ok_iff.mp hcomplete
      rw [← hargs] at harity ⊢
      refine ⟨_, complete_function_eq_ok_iff.mpr ⟨harity, rfl⟩, fun _ _ h => h.extend _ ?_, id⟩
      split
      · exact boundByAll_subset hinner.scope hcommon
      · exact h.scope

end Level

theorem Selector.glue_start (entry : Scope) (selector : Selector) :
    glue (Level.start entry).finished (Level.start entry).stages selector = selector :=
  glue_nil_nil selector

namespace Assembly

variable {earlier : Selector} {front : Pipeline} {around : List (Level × Opener)}

inductive Within (earlier : Selector) (front : Pipeline) (around : List (Level × Opener)) :
    Assembly → Assembly → Prop
  | outermost {level within : Level} (h : level.Continues earlier front within) :
      Within earlier front around ⟨level, []⟩ ⟨within, around⟩
  | inner {level within parent parent' : Level} {opener : Opener}
      {outer outer' : List (Level × Opener)} (h : level.Continues [] [] within)
      (hcommon : level.CommonWithin within)
      (houter : Within earlier front around ⟨parent, outer⟩ ⟨parent', outer'⟩) :
      Within earlier front around ⟨level, (parent, opener) :: outer⟩
        ⟨within, (parent', opener) :: outer'⟩

namespace Within

variable {level within next next' : Level} {outer outer' : List (Level × Opener)}

theorem scope (h : Within earlier front around ⟨level, outer⟩ ⟨within, outer'⟩) :
    level.scope ⊆ within.scope := by
  cases h with
  | outermost h => exact h.scope
  | inner h _ _ => exact h.scope

theorem stages_ne_nil (h : Within earlier front around ⟨level, outer⟩ ⟨within, outer'⟩)
    (hstages : level.stages ≠ []) : within.stages ≠ [] := by
  cases h with
  | outermost h => exact h.stages_ne_nil hstages
  | inner h _ _ => exact h.stages_ne_nil hstages

theorem goOn (h : Within earlier front around ⟨level, outer⟩ ⟨within, outer'⟩)
    (hlevel : ∀ earlier front, level.Continues earlier front within →
      next.Continues earlier front next')
    (hcommon : level.CommonWithin within → next.CommonWithin next') :
    Within earlier front around ⟨next, outer⟩ ⟨next', outer'⟩ := by
  cases h with
  | outermost h => exact .outermost (hlevel _ _ h)
  | inner h hwithin houter => exact .inner (hlevel _ _ h) (hcommon hwithin) houter

theorem enter (h : Within earlier front around ⟨level, outer⟩ ⟨within, outer'⟩) (opener : Opener) :
    Within earlier front around ⟨level.inside opener, (level, opener) :: outer⟩
      ⟨within.inside opener, (within, opener) :: outer'⟩ := by
  refine .inner (.inside h.scope opener) ?_ h
  rw [Level.inside_eq_start, Level.inside_eq_start]
  exact .start _ _

theorem step {a a' b : Assembly} (h : Within earlier front around a a') {place : List Char}
    {lexeme : Lexeme} (hstep : a.step place lexeme = .ok b) (place' : List Char) :
    ∃ b', a'.step place' lexeme = .ok b' ∧ Within earlier front around b b' := by
  obtain ⟨level, outer⟩ := a
  obtain ⟨within, outer'⟩ := a'
  cases lexeme with
  | stage stage =>
      cases hstep
      exact ⟨_, rfl, h.goOn (fun _ _ hlevel => hlevel.extend [stage] hlevel.scope) id⟩
  | bind name =>
      cases hstep
      exact ⟨_, rfl, h.goOn (fun _ _ hlevel =>
        hlevel.extend [.bind name] (Level.Continues.insert_subset hlevel.scope name)) id⟩
  | get name =>
      rw [Assembly.step] at hstep
      split at hstep
      next hbound =>
        cases hstep
        refine ⟨_, if_pos (h.scope hbound), ?_⟩
        exact h.goOn (fun _ _ hlevel => hlevel.extend [.get name] hlevel.scope) id
      · cases hstep
  | openFunction kind name =>
      cases hstep
      exact ⟨_, rfl, h.enter (.function kind name)⟩
  | openCapture name =>
      cases hstep
      exact ⟨_, rfl, h.enter (.capture name)⟩
  | comma =>
      obtain ⟨hstages, rfl⟩ := step_comma_eq_ok_iff.mp hstep
      refine ⟨_, step_comma_eq_ok_iff.mpr ⟨h.stages_ne_nil hstages, rfl⟩, ?_⟩
      exact h.goOn (fun _ _ hlevel => hlevel.nextAlternative)
        fun hcommon => hcommon.nextAlternative h.scope
  | close =>
      obtain ⟨hstages, parent, opener, rfl, hcomplete⟩ := step_close_eq_ok_iff.mp hstep
      -- the text opened this parenthesis itself, since it closes none that it stands in
      cases h with
      | @inner _ _ _ parent' _ _ outer' hlevel hcommon houter =>
      obtain ⟨completed', hcomplete', hcontinues, hcommon'⟩ :=
        Level.exists_complete parent' hlevel hcommon hcomplete
      refine ⟨⟨completed', outer'⟩, ?_, houter.goOn hcontinues hcommon'⟩
      exact step_close_eq_ok_iff.mpr
        ⟨hlevel.stages_ne_nil hstages, parent', opener, rfl, hcomplete'⟩

theorem reads {a a' b : Assembly} {lexemes left : Lexemes} {read : List Lexeme}
    (h : Within earlier front around a a') (hread : Reads a lexemes read b left)
    {lexemes' left' : Lexemes} (hbegins : lexemes'.Begins read left') :
    ∃ b', Reads a' lexemes' read b' left' ∧ Within earlier front around b b' := by
  induction hread generalizing a' lexemes' with
  | refl =>
      cases hbegins
      exact ⟨a', .refl, h⟩
  | step hstep _ ih =>
      cases hbegins with
      | next place' hrest =>
      obtain ⟨next, hnext, hwithin⟩ := h.step hstep place'
      obtain ⟨b', hread, hb⟩ := ih hwithin hrest
      exact ⟨b', .step hnext hread, hb⟩

end Within

theorem Reads.begins {a b : Assembly} {lexemes left : Lexemes} {read : List Lexeme}
    (h : Reads a lexemes read b left) : lexemes.Begins read left := by
  induction h with
  | refl => exact .refl
  | step _ _ ih => exact .next _ ih

theorem assemble_eq_ok_iff {a : Assembly} {lexemes : Lexemes} {selector : Selector} :
    assemble a.level a.outer lexemes = .ok selector ↔
      ∃ read level, Reads a lexemes read ⟨level, []⟩ .finish ∧ level.stages ≠ [] ∧
        level.alternatives = selector := by
  constructor
  · intro h
    induction lexemes generalizing a with
    | fault f => cases h
    | finish =>
        obtain ⟨level, outer⟩ := a
        change assemble level outer .finish = _ at h
        cases outer with
        | nil =>
            rw [assemble] at h
            split at h
            · cases h
            next hstages =>
              cases h
              exact ⟨[], level, .refl, by simpa using hstages, rfl⟩
        | cons around outer =>
            rw [assemble] at h
            split at h <;> cases h
    | next lexeme place rest ih =>
        rw [assemble_next] at h
        split at h
        · cases h
        next b hstep =>
        obtain ⟨read, level, hread, hlevel⟩ := ih h
        exact ⟨lexeme :: read, level, .step hstep hread, hlevel⟩
  · rintro ⟨read, level, hread, hstages, rfl⟩
    have hempty : ¬level.stages.isEmpty = true := by simpa using hstages
    rw [hread.assemble_eq]
    change assemble level [] .finish = _
    rw [assemble, if_neg hempty]

end Assembly

namespace Selector

open Assembly

theorem parse_eq_ok_iff {text : String} {selector : Selector} :
    parse text = .ok selector ↔
      ∃ read level, Reads .start (.of text.toList) read ⟨level, []⟩ .finish ∧ level.stages ≠ [] ∧
        level.alternatives = selector := by
  rw [← assemble_eq_ok_iff, parse]
  change _ ↔ assemble (.start []) [] _ = _
  cases assemble (.start []) [] (.of text.toList) with
  | error fault => simp
  | ok found => simp

/-- The parser reads a selector wherever it comes to some lexemes. -/
def ReadsAs (selector : Selector) (lexemes left : Lexemes) : Prop :=
  ∀ (level : Level) (outer : List (Level × Opener)), ∃ (read : List Lexeme) (within : Level),
    Reads ⟨level, outer⟩ lexemes read ⟨within, outer⟩ left ∧ within.stages ≠ [] ∧
    within.alternatives = glue level.finished level.stages selector

section Compose

variable {first second : String} {selector other : Selector}

theorem exists_readsAs_of_parse (h : parse first = .ok selector) :
    ∃ read, (Lexemes.of first.toList).Begins read .finish ∧
      ∀ lexemes left, lexemes.Begins read left → selector.ReadsAs lexemes left := by
  obtain ⟨read, final, hread, hstages, rfl⟩ := parse_eq_ok_iff.mp h
  refine ⟨read, hread.begins, ?_⟩
  intro lexemes left hbegins level outer
  have hstart : Within level.finished level.stages outer .start ⟨level, outer⟩ :=
    .outermost (.start level)
  obtain ⟨b', hread', hwithin⟩ := hstart.reads hread hbegins
  cases hwithin with
  | @outermost _ within hcontinues =>
  exact ⟨read, within, hread', hcontinues.stages_ne_nil hstages, hcontinues.alternatives⟩

theorem readsAs_of_parse (h : parse first = .ok selector) :
    selector.ReadsAs (.of first.toList) .finish := by
  obtain ⟨read, hbegins, hreads⟩ := exists_readsAs_of_parse h
  exact hreads _ _ hbegins

theorem readsAs_line (h : parse first = .ok selector) (more : List Char) :
    selector.ReadsAs (.of (first.toList ++ '\n' :: more)) (.of more) := by
  obtain ⟨read, hbegins, hreads⟩ := exists_readsAs_of_parse h
  exact hreads _ _ (Lexemes.begins_append_break more hbegins)

theorem ne_nil_of_parse (h : parse first = .ok selector) : selector ≠ [] := by
  obtain ⟨_, level, -, -, rfl⟩ := parse_eq_ok_iff.mp h
  exact List.append_ne_nil_of_right_ne_nil _ (List.cons_ne_nil _ _)

theorem parse_append_comma (hfirst : parse first = .ok selector)
    (hsecond : parse second = .ok other) :
    parse (first ++ "\n," ++ second) = .ok (selector ++ other) := by
  have htext : (first ++ "\n," ++ second).toList =
      first.toList ++ '\n' :: (',' :: second.toList) := by simp
  obtain ⟨read, level, hread, hstages, hlevel⟩ :=
    readsAs_line hfirst (',' :: second.toList) (.start []) []
  obtain ⟨read', final, hread', hstages', hfinal⟩ :=
    readsAs_of_parse hsecond level.nextAlternative []
  refine parse_eq_ok_iff.mpr ⟨read ++ .comma :: read', final, ?_, hstages', ?_⟩
  · rw [htext]
    refine reads_append.mpr ⟨_, _, hread, ?_⟩
    rw [Lexemes.of_reads (Lexeme.reads_comma _)]
    exact .step (step_comma_eq_ok_iff.mpr ⟨hstages, rfl⟩) hread'
  · rw [glue_start] at hlevel
    rw [hfinal, ← hlevel]
    exact glue_nil (ne_nil_of_parse hsecond) level.alternatives

theorem parse_append_line {p q : Pipeline} (hfirst : parse first = .ok [p])
    (hsecond : parse second = .ok [q]) : parse (first ++ "\n" ++ second) = .ok [p ++ q] := by
  have htext : (first ++ "\n" ++ second).toList = first.toList ++ '\n' :: second.toList := by simp
  obtain ⟨read, level, hread, -, hlevel⟩ := readsAs_line hfirst second.toList (.start []) []
  obtain ⟨read', final, hread', hstages, hfinal⟩ := readsAs_of_parse hsecond level []
  refine parse_eq_ok_iff.mpr ⟨read ++ read', final, ?_, hstages, ?_⟩
  · rw [htext]
    exact reads_append.mpr ⟨_, _, hread, hread'⟩
  · rw [glue_start] at hlevel
    obtain ⟨hfinished, hstages⟩ := List.append_inj' (hlevel.trans (List.nil_append [p]).symm) rfl
    rw [hfinal, hfinished, (List.cons.inj hstages).1]
    rfl

theorem parse_parentheses {text : String} (opener : Opener) {result : Selector}
    (hopens : Lexeme.Reads text.toList opener.lexeme (first.toList ++ '\n' :: [')']))
    (h : parse first = .ok selector)
    (hcomplete : ∀ inner : Level, inner.alternatives = selector → ∃ completed : Level,
      (Level.start []).complete opener inner = .ok completed ∧ completed.stages ≠ [] ∧
      completed.alternatives = result) : parse text = .ok result := by
  obtain ⟨read, inner, hread, hstages, hinner⟩ := readsAs_line h [')']
    ((Level.start []).inside opener) [(.start [], opener)]
  rw [Level.inside_eq_start] at hinner
  obtain ⟨completed, hcompleted, hstages', rfl⟩ := hcomplete inner (hinner.trans (glue_start _ _))
  refine parse_eq_ok_iff.mpr ⟨opener.lexeme :: (read ++ [.close]), completed, ?_, hstages', rfl⟩
  rw [Lexemes.of_reads hopens]
  refine .step (step_opener .start _ opener) (reads_append.mpr ⟨_, _, hread, ?_⟩)
  rw [Lexemes.of_reads (Lexeme.reads_close []), Lexemes.of_nil]
  exact .step (step_close_eq_ok_iff.mpr ⟨hstages, .start [], opener, rfl, hcompleted⟩) .refl

/-- Texts that are accepted are accepted one after the other and in parentheses, if a line break
follows each: as alternatives, as stages of one alternative, as the arguments of a function and as
the selector of a capture. -/
theorem parse_compositional (hfirst : parse first = .ok selector)
    (hsecond : parse second = .ok other) :
    parse (first ++ "\n," ++ second) = .ok (selector ++ other) ∧
    (∀ p q, selector = [p] → other = [q] → parse (first ++ "\n" ++ second) = .ok [p ++ q]) ∧
    (∀ name kind, FunctionKind.ofName? name = some kind →
      (∀ n, kind.arity? = some n → selector.length = n) →
      parse (":" ++ name ++ "(" ++ first ++ "\n)") =
        .ok [[.function kind (selector.map fun pipeline => [pipeline])]]) ∧
    ∀ name, isVariableName name = true →
      parse ("$" ++ name ++ "(" ++ first ++ "\n)") = .ok [[.capture name selector]] := by
  refine ⟨parse_append_comma hfirst hsecond, ?_, ?_, ?_⟩
  · rintro p q rfl rfl
    exact parse_append_line hfirst hsecond
  · intro name kind hkind harity
    have htext : (":" ++ name ++ "(" ++ first ++ "\n)").toList =
        ':' :: (name.toList ++ '(' :: (first.toList ++ '\n' :: [')'])) := by simp
    refine parse_parentheses (.function kind name) ?_ hfirst ?_
    · rw [htext]
      exact Lexeme.reads_functionName hkind _
    · rintro inner rfl
      exact ⟨_, Level.complete_function_eq_ok_iff.mpr ⟨harity, rfl⟩, List.cons_ne_nil _ _, rfl⟩
  · intro name hname
    have htext : ("$" ++ name ++ "(" ++ first ++ "\n)").toList =
        '$' :: (name.toList ++ '(' :: (first.toList ++ '\n' :: [')'])) := by simp
    refine parse_parentheses (.capture name) ?_ hfirst ?_
    · rw [htext]
      exact Lexeme.reads_openCapture hname
    · rintro inner rfl
      exact ⟨_, rfl, List.cons_ne_nil _ _, rfl⟩

end Compose

def marked : Pipeline :=
  [.type (.exact (.aggregate .structure)), .bind "v"]

def backwards : Pipeline :=
  [.attribute ⟨.idMember, none⟩, .neighbor ⟨.reverse, none⟩]

theorem parse_compositional_marked_backwards :
    parse "structure $v // not )" = .ok [marked] ∧ parse "[id|member] <" = .ok [backwards] ∧
    parse ("structure $v // not )" ++ "\n," ++ "[id|member] <") = .ok [marked, backwards] ∧
    parse ("structure $v // not )" ++ "\n" ++ "[id|member] <") = .ok [marked ++ backwards] ∧
    parse (":" ++ "root" ++ "(" ++ "structure $v // not )" ++ "\n)") =
      .ok [[.function .root [[marked]]]] ∧
    parse ("$" ++ "v" ++ "(" ++ "structure $v // not )" ++ "\n)") =
      .ok [[.capture "v" [marked]]] := by
  have hfirst : parse "structure $v // not )" = .ok [marked] := by with_unfolding_all rfl
  have hsecond : parse "[id|member] <" = .ok [backwards] := by with_unfolding_all rfl
  obtain ⟨halternatives, hstages, hfunction, hcapture⟩ := parse_compositional hfirst hsecond
  refine ⟨hfirst, hsecond, halternatives, hstages marked backwards rfl rfl, ?_, ?_⟩
  · refine hfunction "root" .root (by decide) ?_
    rintro n ⟨⟩
    rfl
  · exact hcapture "v" (by decide)

end Selector

end SchemaQuery

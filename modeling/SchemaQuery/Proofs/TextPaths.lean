import Mathlib.Tactic.Common
import SchemaQuery.Proofs.ParsedForm

/-!
Paths through the text of a selector. A path to a place takes one alternative of each selector
around the place, and goes through one argument of every `:is` in front of it. The names that the
parser holds as bound at a place are those that every path to it binds.
-/

namespace SchemaQuery

/-- Where the parser stands: in a selector that is being read, inside of others. -/
structure Assembly where
  level : Level
  outer : List (Level × Opener)

theorem Selector.parse_eq_mapError (text : String) :
    parse text = (assemble (.start []) [] (.of text.toList)).mapError fun fault =>
      fault.toError text := by
  unfold parse
  cases assemble (.start []) [] (.of text.toList) with
  | error fault => rfl
  | ok s => rfl

namespace Assembly

def start : Assembly := ⟨.start [], []⟩

def step (a : Assembly) (place : List Char) : Lexeme → Except Fault Assembly
  | .stage stage => .ok ⟨a.level.add stage, a.outer⟩
  | .bind name => .ok ⟨a.level.addBinding (.bind name) name, a.outer⟩
  | .get name =>
    if name ∈ a.level.scope then
      .ok ⟨a.level.add (.get name), a.outer⟩
    else
      .error (.reference (.unboundVariable name))
  | .openFunction kind name =>
    .ok ⟨a.level.inside (.function kind name), (a.level, .function kind name) :: a.outer⟩
  | .openCapture name => .ok ⟨a.level.inside (.capture name), (a.level, .capture name) :: a.outer⟩
  | .comma =>
    if a.level.stages.isEmpty then
      .error (.flaw .selectorExpected place)
    else
      .ok ⟨a.level.nextAlternative, a.outer⟩
  | .close =>
    if a.level.stages.isEmpty then
      .error (.flaw .selectorExpected place)
    else
      match a.outer with
      | [] => .error (.flaw (.unexpected ')') place)
      | (parent, opener) :: outer =>
        match parent.complete opener a.level with
        | .error e => .error (.reference e)
        | .ok level => .ok ⟨level, outer⟩

/-- The parser reads some lexemes without finding fault, and comes to what is left of the text. -/
inductive Reads : Assembly → Lexemes → List Lexeme → Assembly → Lexemes → Prop
  | refl {a : Assembly} {left : Lexemes} : Reads a left [] a left
  | step {a b c : Assembly} {lexeme : Lexeme} {place : List Char} {rest left : Lexemes}
      {read : List Lexeme} (hstep : a.step place lexeme = .ok b) (hrest : Reads b rest read c left) :
      Reads a (.next lexeme place rest) (lexeme :: read) c left

theorem assemble_next (a : Assembly) (lexeme : Lexeme) (place : List Char) (rest : Lexemes) :
    assemble a.level a.outer (.next lexeme place rest) =
      match a.step place lexeme with
      | .error f => .error f
      | .ok b => assemble b.level b.outer rest := by
  cases lexeme with
  | stage | bind | openFunction | openCapture => rfl
  | get name =>
      rw [assemble, step]
      split <;> rfl
  | comma =>
      rw [assemble, step]
      split <;> rfl
  | close =>
      obtain ⟨level, outer⟩ := a
      cases outer with
      | nil =>
          rw [assemble, step]
          split <;> rfl
      | cons around outer =>
          rw [assemble, step]
          split
          · rfl
          · dsimp only
            cases around.1.complete around.2 level <;> rfl

theorem Reads.assemble_eq {a b : Assembly} {lexemes left : Lexemes} {read : List Lexeme}
    (h : Reads a lexemes read b left) :
    assemble a.level a.outer lexemes = assemble b.level b.outer left := by
  induction h with
  | refl => rfl
  | step hstep _ ih => rw [assemble_next, hstep, ← ih]

theorem reads_append {a c : Assembly} {lexemes left : Lexemes} {first second : List Lexeme} :
    Reads a lexemes (first ++ second) c left ↔
      ∃ b middle, Reads a lexemes first b middle ∧ Reads b middle second c left := by
  constructor
  · intro h
    induction first generalizing a lexemes with
    | nil => exact ⟨a, lexemes, .refl, h⟩
    | cons lexeme first ih =>
        cases h with
        | step hstep hrest =>
            obtain ⟨b, middle, hfirst, hsecond⟩ := ih hrest
            exact ⟨b, middle, .step hstep hfirst, hsecond⟩
  · rintro ⟨b, middle, hfirst, hsecond⟩
    induction hfirst with
    | refl => exact hsecond
    | step hstep _ ih => exact .step hstep (ih hsecond)

theorem reads_singleton {a b : Assembly} {lexemes left : Lexemes} {lexeme : Lexeme} :
    Reads a lexemes [lexeme] b left ↔
      ∃ place, lexemes = .next lexeme place left ∧ a.step place lexeme = .ok b := by
  constructor
  · intro h
    cases h with
    | step hstep hrest =>
        cases hrest
        exact ⟨_, rfl, hstep⟩
  · rintro ⟨place, rfl, hstep⟩
    exact .step hstep .refl

end Assembly

namespace Opener

def lexeme : Opener → Lexeme
  | .function kind name => .openFunction kind name
  | .capture name => .openCapture name

def scopeBehind (outer inner : Level) : Opener → Scope
  | .function kind _ => if kind = .is then inner.boundByAll else outer.scope
  | .capture name => outer.scope.insert name

def scopeInside (outer : Level) : Opener → Scope
  | .function kind _ => if kind = .root then [] else outer.scope
  | .capture _ => outer.scope

end Opener

theorem Opener.scopeInside_eq {opener : Opener} (h : ∀ text, opener ≠ .function .root text)
    (outer : Level) : opener.scopeInside outer = outer.scope := by
  cases opener with
  | capture name => rfl
  | function kind text =>
      refine if_neg ?_
      rintro rfl
      exact h text rfl

theorem Level.inside_eq_start (level : Level) (opener : Opener) :
    level.inside opener = .start (opener.scopeInside level) := by
  cases opener with
  | capture name => rfl
  | function kind name => cases kind <;> rfl

theorem Level.of_complete {outer inner completed : Level} {opener : Opener}
    (h : outer.complete opener inner = .ok completed) :
    completed.entry = outer.entry ∧ completed.common = outer.common ∧
      completed.scope = opener.scopeBehind outer inner := by
  cases opener with
  | capture name =>
      cases h
      exact ⟨rfl, rfl, rfl⟩
  | function kind name =>
      obtain ⟨-, rfl⟩ := complete_function_eq_ok_iff.mp h
      exact ⟨rfl, rfl, rfl⟩

inductive Balanced : List Lexeme → Prop
  | nil : Balanced []
  | single {read : List Lexeme} {lexeme : Lexeme} (h : Balanced read)
      (hopen : ∀ opener : Opener, lexeme ≠ opener.lexeme) (hclose : lexeme ≠ .close) :
      Balanced (read ++ [lexeme])
  | group {read inner : List Lexeme} (opener : Opener) (h : Balanced read)
      (hinner : Balanced inner) : Balanced (read ++ (opener.lexeme :: inner ++ [.close]))

def Earlier (lexemes : List Lexeme) : Prop :=
  lexemes = [] ∨ ∃ alternatives, Balanced alternatives ∧ lexemes = alternatives ++ [.comma]

def Later (lexemes : List Lexeme) : Prop :=
  lexemes = [] ∨ ∃ alternatives, Balanced alternatives ∧ lexemes = .comma :: alternatives

/-- A way through stages that stand one after the other, with the names that are bound on it. It goes
through one argument of an `:is`, and past what other functions and captures hold. -/
inductive TextWay : List Lexeme → List String → Prop
  | nil : TextWay [] []
  | stage {read : List Lexeme} {names : List String} (stage : Stage) (h : TextWay read names) :
      TextWay (read ++ [.stage stage]) names
  | get {read : List Lexeme} {names : List String} (name : String) (h : TextWay read names) :
      TextWay (read ++ [.get name]) names
  | bind {read : List Lexeme} {names : List String} (name : String) (h : TextWay read names) :
      TextWay (read ++ [.bind name]) (names ++ [name])
  | capture {read inner : List Lexeme} {names : List String} (name : String)
      (h : TextWay read names) (hinner : Balanced inner) :
      TextWay (read ++ (.openCapture name :: inner ++ [.close])) (names ++ [name])
  | past {read inner : List Lexeme} {names : List String} {kind : FunctionKind} (text : String)
      (h : TextWay read names) (hkind : kind ≠ .is) (hinner : Balanced inner) :
      TextWay (read ++ (.openFunction kind text :: inner ++ [.close])) names
  | through {read earlier argument later : List Lexeme} {names next : List String} (text : String)
      (h : TextWay read names) (hearlier : Earlier earlier) (hargument : TextWay argument next)
      (hlater : Later later) :
      TextWay (read ++ (.openFunction .is text :: (earlier ++ argument ++ later) ++ [.close]))
        (names ++ next)

/-- A path from the start of a text to the place after some lexemes, with the names that are bound
on it. It enters the alternative that holds the place. Inside of `:root` nothing is bound yet. -/
inductive TextPath : List Lexeme → List String → Prop
  | outermost {earlier read : List Lexeme} {names : List String} (hearlier : Earlier earlier)
      (hway : TextWay read names) : TextPath (earlier ++ read) names
  | inside {around earlier read : List Lexeme} {before names : List String} {opener : Opener}
      (haround : TextPath around before) (hopener : ∀ text, opener ≠ .function .root text)
      (hearlier : Earlier earlier) (hway : TextWay read names) :
      TextPath (around ++ opener.lexeme :: (earlier ++ read)) (before ++ names)
  | root {around earlier read : List Lexeme} {before names : List String} (text : String)
      (haround : TextPath around before) (hearlier : Earlier earlier) (hway : TextWay read names) :
      TextPath (around ++ .openFunction .root text :: (earlier ++ read)) names

theorem Balanced.append {first second : List Lexeme} (hfirst : Balanced first)
    (hsecond : Balanced second) : Balanced (first ++ second) := by
  induction hsecond with
  | nil => rwa [List.append_nil]
  | single _ hopen hclose ih =>
      rw [← List.append_assoc]
      exact ih.single hopen hclose
  | group opener _ hinner ih _ =>
      rw [← List.append_assoc]
      exact ih.group opener hinner

theorem Balanced.comma : Balanced [.comma] :=
  Balanced.nil.single (fun opener => by cases opener <;> simp [Opener.lexeme]) (by simp)

theorem Earlier.balanced {lexemes : List Lexeme} (h : Earlier lexemes) : Balanced lexemes := by
  rcases h with rfl | ⟨alternatives, halternatives, rfl⟩
  · exact .nil
  · exact halternatives.append .comma

theorem Later.balanced {lexemes : List Lexeme} (h : Later lexemes) : Balanced lexemes := by
  rcases h with rfl | ⟨alternatives, halternatives, rfl⟩
  · exact .nil
  · exact Balanced.comma.append halternatives

theorem TextWay.balanced {read : List Lexeme} {names : List String} (h : TextWay read names) :
    Balanced read := by
  induction h with
  | nil => exact .nil
  | stage stage _ ih =>
      exact ih.single (fun opener => by cases opener <;> simp [Opener.lexeme]) (by simp)
  | get name _ ih | bind name _ ih =>
      exact ih.single (fun opener => by cases opener <;> simp [Opener.lexeme]) (by simp)
  | capture name _ hinner ih => exact ih.group (.capture name) hinner
  | @past _ _ _ kind text _ _ hinner ih => exact ih.group (.function kind text) hinner
  | through text _ hearlier _ hlater ih hargument =>
      exact ih.group (.function .is text) ((hearlier.balanced.append hargument).append hlater.balanced)

namespace Assembly

structure Follows (a b : Assembly) : Prop where
  outer : b.outer = a.outer
  entry : b.level.entry = a.level.entry
  common : ∀ common, a.level.common = some common →
    ∃ after, b.level.common = some after ∧ after ⊆ common

theorem Follows.refl (a : Assembly) : a.Follows a :=
  ⟨rfl, rfl, fun common h => ⟨common, h, fun _ hname => hname⟩⟩

theorem Follows.trans {a b c : Assembly} (hab : a.Follows b) (hbc : b.Follows c) :
    a.Follows c where
  outer := hbc.outer.trans hab.outer
  entry := hbc.entry.trans hab.entry
  common := by
    intro common hcommon
    obtain ⟨middle, hmiddle, hsub⟩ := hab.common common hcommon
    obtain ⟨after, hafter, hsub'⟩ := hbc.common middle hmiddle
    exact ⟨after, hafter, fun _ hname => hsub (hsub' hname)⟩

theorem step_opener (a : Assembly) (place : List Char) (opener : Opener) :
    a.step place opener.lexeme =
      .ok ⟨a.level.inside opener, (a.level, opener) :: a.outer⟩ := by
  cases opener <;> rfl

theorem eq_of_step_comma {a b : Assembly} {place : List Char} (h : a.step place .comma = .ok b) :
    b = ⟨a.level.nextAlternative, a.outer⟩ := by
  rw [step] at h
  split at h
  · cases h
  · exact (Except.ok.inj h).symm

theorem exists_of_step_close {a b : Assembly} {place : List Char}
    (h : a.step place .close = .ok b) :
    ∃ parent opener, a.outer = (parent, opener) :: b.outer ∧
      parent.complete opener a.level = .ok b.level := by
  obtain ⟨level, outer⟩ := a
  rw [step] at h
  split at h
  · cases h
  · split at h
    · cases h
    · next parent opener outer houter =>
      split at h
      · cases h
      · next completed hcomplete =>
        cases h
        exact ⟨parent, opener, houter, hcomplete⟩

section Separators

variable {a b : Assembly} {place : List Char}

theorem step_comma_eq_ok_iff : a.step place .comma = .ok b ↔
    a.level.stages ≠ [] ∧ b = ⟨a.level.nextAlternative, a.outer⟩ := by
  constructor
  · intro h
    refine ⟨?_, eq_of_step_comma h⟩
    intro hnil
    rw [step, if_pos (by simp [hnil])] at h
    cases h
  · rintro ⟨hstages, rfl⟩
    rw [step, if_neg (by simpa using hstages)]

theorem step_close_eq_ok_iff : a.step place .close = .ok b ↔
    a.level.stages ≠ [] ∧ ∃ parent opener, a.outer = (parent, opener) :: b.outer ∧
      parent.complete opener a.level = .ok b.level := by
  constructor
  · intro h
    refine ⟨?_, exists_of_step_close h⟩
    intro hnil
    rw [step, if_pos (by simp [hnil])] at h
    cases h
  · rintro ⟨hstages, parent, opener, houter, hcomplete⟩
    rw [step, if_neg (by simpa using hstages), houter]
    dsimp only
    rw [hcomplete]

end Separators

theorem Follows.of_step {a b : Assembly} {place : List Char} {lexeme : Lexeme}
    (hopen : ∀ opener : Opener, lexeme ≠ opener.lexeme) (hclose : lexeme ≠ .close)
    (h : a.step place lexeme = .ok b) : a.Follows b := by
  cases lexeme with
  | openFunction kind name => exact absurd rfl (hopen (.function kind name))
  | openCapture name => exact absurd rfl (hopen (.capture name))
  | close => exact absurd rfl hclose
  | stage | bind =>
      cases h
      exact ⟨rfl, rfl, fun common h => ⟨common, h, fun _ hname => hname⟩⟩
  | get name =>
      rw [step] at h
      split at h
      · cases h
        exact ⟨rfl, rfl, fun common h => ⟨common, h, fun _ hname => hname⟩⟩
      · cases h
  | comma =>
      cases eq_of_step_comma h
      refine ⟨rfl, rfl, fun common hcommon => ⟨a.level.boundByAll, rfl, ?_⟩⟩
      intro name hname
      exact (Level.mem_boundByAll.mp hname).1 common hcommon

theorem exists_of_reads_group {a b : Assembly} {lexemes left : Lexemes} {inner : List Lexeme}
    (opener : Opener) (h : Reads a lexemes (opener.lexeme :: inner ++ [.close]) b left) :
    ∃ c first last, Reads ⟨a.level.inside opener, (a.level, opener) :: a.outer⟩ first inner c last ∧
      (c.outer = (a.level, opener) :: a.outer →
        b.outer = a.outer ∧ a.level.complete opener c.level = .ok b.level) := by
  rw [List.cons_append, ← List.singleton_append, reads_append] at h
  obtain ⟨opened, first, hopen, h⟩ := h
  obtain ⟨c, last, hinner, hclose⟩ := reads_append.mp h
  obtain ⟨place, -, hstep⟩ := reads_singleton.mp hopen
  rw [step_opener] at hstep
  cases hstep
  refine ⟨c, first, last, hinner, ?_⟩
  intro houter
  obtain ⟨_, -, hstep⟩ := reads_singleton.mp hclose
  obtain ⟨parent, other, hparent, hcomplete⟩ := exists_of_step_close hstep
  rw [houter] at hparent
  simp only [List.cons.injEq, Prod.mk.injEq] at hparent
  obtain ⟨⟨rfl, rfl⟩, hrest⟩ := hparent
  exact ⟨hrest.symm, hcomplete⟩

theorem Follows.of_reads {a b : Assembly} {lexemes left : Lexemes} {read : List Lexeme}
    (hread : Balanced read) (h : Reads a lexemes read b left) : a.Follows b := by
  -- by the last lexeme or parenthesis; the inside of a parenthesis ends where it began
  induction hread generalizing a b lexemes left with
  | nil =>
      cases h
      exact .refl a
  | single _ hopen hclose ih =>
      obtain ⟨c, _, hfirst, hlast⟩ := reads_append.mp h
      obtain ⟨_, -, hstep⟩ := reads_singleton.mp hlast
      exact (ih hfirst).trans (.of_step hopen hclose hstep)
  | group opener _ _ ih ihinner =>
      obtain ⟨c, _, hfirst, hgroup⟩ := reads_append.mp h
      obtain ⟨d, _, _, hinner, hbehind⟩ := exists_of_reads_group _ hgroup
      obtain ⟨houter, hcomplete⟩ := hbehind (ihinner hinner).outer
      obtain ⟨hentry, hcommon, -⟩ := Level.of_complete hcomplete
      refine (ih hfirst).trans ⟨houter, hentry, ?_⟩
      intro common h
      exact ⟨common, hcommon.trans h, fun _ hname => hname⟩

theorem scope_eq_of_earlier {a b : Assembly} {lexemes left : Lexemes} {earlier : List Lexeme}
    (hearlier : Earlier earlier) (hstart : a.level.scope = a.level.entry)
    (h : Reads a lexemes earlier b left) : b.level.scope = a.level.entry := by
  rcases hearlier with rfl | ⟨alternatives, halternatives, rfl⟩
  · cases h
    exact hstart
  · obtain ⟨c, _, hfirst, hlast⟩ := reads_append.mp h
    obtain ⟨_, -, hstep⟩ := reads_singleton.mp hlast
    cases eq_of_step_comma hstep
    exact (Follows.of_reads halternatives hfirst).entry

theorem boundByAll_subset_of_later {a b : Assembly} {lexemes left : Lexemes} {later : List Lexeme}
    (hlater : Later later) (h : Reads a lexemes later b left) :
    b.level.boundByAll ⊆ a.level.scope := by
  intro name hname
  obtain ⟨hcommon, hscope⟩ := Level.mem_boundByAll.mp hname
  rcases hlater with rfl | ⟨alternatives, halternatives, rfl⟩
  · cases h
    exact hscope
  · rw [← List.singleton_append, reads_append] at h
    obtain ⟨c, _, hfirst, hrest⟩ := h
    obtain ⟨_, -, hstep⟩ := reads_singleton.mp hfirst
    cases eq_of_step_comma hstep
    -- the comma has put what `a` binds among what all alternatives bind, and that only shrinks
    obtain ⟨after, hafter, hsub⟩ :=
      (Follows.of_reads halternatives hrest).common a.level.boundByAll rfl
    exact (Level.mem_boundByAll.mp (hsub (hcommon after hafter))).2

theorem mem_of_reads_way {a b : Assembly} {lexemes left : Lexemes} {read : List Lexeme}
    {names : List String} (hway : TextWay read names) (h : Reads a lexemes read b left)
    {name : String} (hname : name ∈ b.level.scope) : name ∈ a.level.scope ∨ name ∈ names := by
  induction hway generalizing a b lexemes left with
  | nil =>
      cases h
      exact .inl hname
  | stage stage _ ih =>
      obtain ⟨c, _, hfirst, hlast⟩ := reads_append.mp h
      obtain ⟨_, -, hstep⟩ := reads_singleton.mp hlast
      cases hstep
      exact ih hfirst hname
  | get other _ ih =>
      obtain ⟨c, _, hfirst, hlast⟩ := reads_append.mp h
      obtain ⟨_, -, hstep⟩ := reads_singleton.mp hlast
      rw [step] at hstep
      split at hstep
      · cases hstep
        exact ih hfirst hname
      · cases hstep
  | bind other _ ih =>
      obtain ⟨c, _, hfirst, hlast⟩ := reads_append.mp h
      obtain ⟨_, -, hstep⟩ := reads_singleton.mp hlast
      cases hstep
      rw [List.mem_append, List.mem_singleton]
      rcases List.mem_insert_iff.mp hname with heq | hold
      · exact .inr (.inr heq)
      · exact (ih hfirst hold).imp_right .inl
  | capture other _ hinner ih =>
      obtain ⟨c, _, hfirst, hgroup⟩ := reads_append.mp h
      obtain ⟨d, _, _, hread, hbehind⟩ := exists_of_reads_group (.capture other) hgroup
      obtain ⟨-, hcomplete⟩ := hbehind (Follows.of_reads hinner hread).outer
      rw [(Level.of_complete hcomplete).2.2, Opener.scopeBehind] at hname
      rw [List.mem_append, List.mem_singleton]
      rcases List.mem_insert_iff.mp hname with heq | hold
      · exact .inr (.inr heq)
      · exact (ih hfirst hold).imp_right .inl
  | @past _ _ _ kind text _ hkind hinner ih =>
      obtain ⟨c, _, hfirst, hgroup⟩ := reads_append.mp h
      obtain ⟨d, _, _, hread, hbehind⟩ :=
        exists_of_reads_group (.function kind text) hgroup
      obtain ⟨-, hcomplete⟩ := hbehind (Follows.of_reads hinner hread).outer
      rw [(Level.of_complete hcomplete).2.2, Opener.scopeBehind, if_neg hkind] at hname
      exact ih hfirst hname
  | through text _ hearlier hargument hlater ih ihargument =>
      obtain ⟨c, _, hfirst, hgroup⟩ := reads_append.mp h
      obtain ⟨d, _, _, hread, hbehind⟩ :=
        exists_of_reads_group (.function .is text) hgroup
      have hinner := (hearlier.balanced.append hargument.balanced).append hlater.balanced
      obtain ⟨-, hcomplete⟩ := hbehind (Follows.of_reads hinner hread).outer
      rw [(Level.of_complete hcomplete).2.2, Opener.scopeBehind, if_pos rfl] at hname
      obtain ⟨behind, _, hfront, hback⟩ := reads_append.mp hread
      obtain ⟨before, _, hskip, hthrough⟩ := reads_append.mp hfront
      -- what all arguments bind is bound at the end of the one that the way leads through
      have hscope := boundByAll_subset_of_later hlater hback hname
      have hentry : before.level.scope = c.level.scope :=
        scope_eq_of_earlier hearlier rfl hskip
      rw [List.mem_append]
      rcases ihargument hthrough hscope with hbefore | hnext
      · rw [hentry] at hbefore
        exact (ih hfirst hbefore).imp_right .inl
      · exact .inr (.inr hnext)

/-- In an alternative no more is bound than at the start of the selector and on any way from the
start of the alternative. -/
theorem mem_of_reads_alternative {a b : Assembly} {lexemes left : Lexemes}
    {earlier read : List Lexeme} {names : List String} (hearlier : Earlier earlier)
    (hway : TextWay read names) (hstart : a.level.scope = a.level.entry)
    (h : Reads a lexemes (earlier ++ read) b left) {name : String}
    (hname : name ∈ b.level.scope) : name ∈ a.level.entry ∨ name ∈ names := by
  obtain ⟨c, _, hfirst, hlast⟩ := reads_append.mp h
  rw [← scope_eq_of_earlier hearlier hstart hfirst]
  exact mem_of_reads_way hway hlast hname

/-- Every path to a place binds what the parser holds as bound there. -/
theorem mem_of_reads_path {a : Assembly} {lexemes left : Lexemes} {read : List Lexeme}
    {names : List String} (hpath : TextPath read names) (h : Reads start lexemes read a left)
    {name : String} (hname : name ∈ a.level.scope) : name ∈ names := by
  induction hpath generalizing a left with
  | outermost hearlier hway =>
      exact (mem_of_reads_alternative hearlier hway rfl h hname).resolve_left List.not_mem_nil
  | @inside _ _ _ _ _ opener _ hopener hearlier hway ih =>
      obtain ⟨b, _, haround, hrest⟩ := reads_append.mp h
      rw [← List.singleton_append, reads_append] at hrest
      obtain ⟨c, _, hopen, hrest⟩ := hrest
      obtain ⟨_, -, hstep⟩ := reads_singleton.mp hopen
      rw [step_opener] at hstep
      cases hstep
      have hstart := b.level.inside_eq_start opener
      rw [List.mem_append]
      rcases mem_of_reads_alternative hearlier hway (by rw [hstart]; rfl) hrest hname with
        hentry | hnames
      · -- what is bound where the parenthesis opens is bound on the path to it
        refine .inl (ih haround ?_)
        rwa [hstart, Level.start, opener.scopeInside_eq hopener] at hentry
      · exact .inr hnames
  | root text _ hearlier hway _ =>
      obtain ⟨b, _, -, hrest⟩ := reads_append.mp h
      rw [← List.singleton_append, reads_append] at hrest
      obtain ⟨c, _, hopen, hrest⟩ := hrest
      obtain ⟨_, -, hstep⟩ := reads_singleton.mp hopen
      cases hstep
      exact (mem_of_reads_alternative hearlier hway rfl hrest hname).resolve_left
        List.not_mem_nil

end Assembly

def Misses (name : String) (alternatives : List Lexeme) : Prop :=
  ∃ earlier read later names, alternatives = earlier ++ read ++ later ∧ Earlier earlier ∧
    TextWay read names ∧ Later later ∧ name ∉ names

theorem Misses.next {name : String} {alternatives read : List Lexeme}
    (h : Misses name alternatives) (hread : Balanced read) :
    Misses name (alternatives ++ [.comma] ++ read) := by
  obtain ⟨earlier, way, later, names, rfl, hearlier, hway, hlater, hname⟩ := h
  refine ⟨earlier, way, later ++ [.comma] ++ read, names, by simp, hearlier, hway, .inr ?_, hname⟩
  rcases hlater with rfl | ⟨others, hothers, rfl⟩
  · exact ⟨read, hread, rfl⟩
  · exact ⟨others ++ [.comma] ++ read, (hothers.append .comma).append hread, by simp⟩

/-- The lexemes from which a selector has been read: those of the finished alternatives, and those of
the stages after them. What is not bound is missed on some way through these. -/
structure Level.Traced (level : Level) (earlier read : List Lexeme) : Prop where
  start : level.common = none → earlier = []
  common : ∀ common, level.common = some common → ∃ alternatives, Balanced alternatives ∧
    earlier = alternatives ++ [.comma] ∧
      ∀ name ∉ common, name ∉ level.entry ∧ Misses name alternatives
  way : ∃ names, TextWay read names
  scope : ∀ name ∉ level.scope, name ∉ level.entry ∧ ∃ names, TextWay read names ∧ name ∉ names

namespace Level.Traced

variable {level : Level} {earlier read : List Lexeme}

theorem of_start (entry : Scope) : (Level.start entry).Traced [] [] where
  start := fun _ => rfl
  common := by simp [Level.start]
  way := ⟨[], .nil⟩
  scope := fun _ hname => ⟨hname, [], .nil, List.not_mem_nil⟩

theorem isEarlier (h : level.Traced earlier read) : Earlier earlier := by
  cases hcommon : level.common with
  | none => exact .inl (h.start hcommon)
  | some common =>
      obtain ⟨alternatives, hbalanced, heq, -⟩ := h.common common hcommon
      exact .inr ⟨alternatives, hbalanced, heq⟩

theorem balanced (h : level.Traced earlier read) : Balanced read :=
  h.way.elim fun _ hway => hway.balanced

theorem extend (h : level.Traced earlier read) {after : Level} {more : List Lexeme}
    (hentry : after.entry = level.entry) (hcommon : after.common = level.common)
    (hway : ∃ names, TextWay (read ++ more) names)
    (hscope : ∀ name ∉ after.scope, name ∉ level.entry ∧
      ∃ names, TextWay (read ++ more) names ∧ name ∉ names) :
    after.Traced earlier (read ++ more) where
  start := by
    rw [hcommon]
    exact h.start
  common := by
    rw [hcommon, hentry]
    exact h.common
  way := hway
  scope := by
    rw [hentry]
    exact hscope

theorem add (h : level.Traced earlier read) (stage : Stage) {lexeme : Lexeme}
    (hway : ∀ names, TextWay read names → TextWay (read ++ [lexeme]) names) :
    (level.add stage).Traced earlier (read ++ [lexeme]) := by
  refine h.extend rfl rfl (h.way.imp hway) ?_
  intro name hname
  obtain ⟨hentry, names, hnames, hmissing⟩ := h.scope name hname
  exact ⟨hentry, names, hway names hnames, hmissing⟩

theorem addBinding (h : level.Traced earlier read) {after : Level} {more : List Lexeme}
    {bound : String} (hentry : after.entry = level.entry) (hcommon : after.common = level.common)
    (hscope : after.scope = level.scope.insert bound)
    (hway : ∀ names, TextWay read names → TextWay (read ++ more) (names ++ [bound])) :
    after.Traced earlier (read ++ more) := by
  refine h.extend hentry hcommon (h.way.elim fun names hnames => ⟨_, hway names hnames⟩) ?_
  intro name hname
  rw [hscope, List.mem_insert_iff, not_or] at hname
  obtain ⟨hstart, names, hnames, hmissing⟩ := h.scope name hname.2
  refine ⟨hstart, _, hway names hnames, ?_⟩
  rw [List.mem_append, List.mem_singleton, not_or]
  exact ⟨hmissing, hname.1⟩

theorem misses (h : level.Traced earlier read) {name : String} (hname : name ∉ level.boundByAll) :
    name ∉ level.entry ∧ Misses name (earlier ++ read) := by
  by_cases hscope : name ∈ level.scope
  · rw [mem_boundByAll, not_and'] at hname
    obtain ⟨common, hcommon, hmissing⟩ := by simpa using hname hscope
    obtain ⟨alternatives, -, rfl, hmisses⟩ := h.common common hcommon
    obtain ⟨hentry, hmisses⟩ := hmisses name hmissing
    exact ⟨hentry, hmisses.next h.balanced⟩
  · obtain ⟨hentry, names, hway, hmissing⟩ := h.scope name hscope
    exact ⟨hentry, earlier, read, [], names, by simp, h.isEarlier, hway, .inl rfl, hmissing⟩

theorem nextAlternative (h : level.Traced earlier read) :
    level.nextAlternative.Traced (earlier ++ read ++ [.comma]) [] where
  start := by simp
  common := by
    rintro _ ⟨⟩
    exact ⟨earlier ++ read, h.isEarlier.balanced.append h.balanced, rfl, fun _ => h.misses⟩
  way := ⟨[], .nil⟩
  scope := fun _ hname => ⟨hname, [], .nil, List.not_mem_nil⟩

theorem complete (h : level.Traced earlier read) {opener : Opener} {inner completed : Level}
    {first second : List Lexeme} (hinner : inner.Traced first second)
    (hentry : inner.entry = opener.scopeInside level)
    (hcomplete : level.complete opener inner = .ok completed) :
    completed.Traced earlier (read ++ (opener.lexeme :: (first ++ second) ++ [.close])) := by
  obtain ⟨hstart, hcommon, hscope⟩ := of_complete hcomplete
  have hbalanced := hinner.isEarlier.balanced.append hinner.balanced
  cases opener with
  | capture name =>
      exact h.addBinding hstart hcommon hscope fun _ hnames => hnames.capture name hbalanced
  | function kind text =>
      rw [Opener.scopeBehind] at hscope
      split at hscope
      · next his =>
        subst his
        rw [Opener.scopeInside, if_neg (by decide)] at hentry
        refine h.extend hstart hcommon ?_ ?_
        · obtain ⟨names, hnames⟩ := h.way
          obtain ⟨next, hnext⟩ := hinner.way
          have hthrough := hnames.through text hinner.isEarlier hnext (.inl rfl)
          rw [List.append_nil] at hthrough
          exact ⟨_, hthrough⟩
        · -- the way that misses the name leads through the argument that misses it
          intro name hname
          rw [hscope] at hname
          obtain ⟨hbefore, front, argument, later, next, heq, hfront, hnext, hlater, hmissing⟩ :=
            hinner.misses hname
          rw [hentry] at hbefore
          obtain ⟨hnot, names, hnames, hunbound⟩ := h.scope name hbefore
          refine ⟨hnot, names ++ next, ?_, ?_⟩
          · rw [heq]
            exact hnames.through text hfront hnext hlater
          · rw [List.mem_append, not_or]
            exact ⟨hunbound, hmissing⟩
      · next his =>
        refine h.extend hstart hcommon (h.way.imp fun _ hnames => hnames.past text his hbalanced) ?_
        intro name hname
        rw [hscope] at hname
        obtain ⟨hnot, names, hnames, hunbound⟩ := h.scope name hname
        exact ⟨hnot, names, hnames.past text his hbalanced, hunbound⟩

end Level.Traced

namespace Assembly

/-- The lexemes that have been read, taken apart into the selectors in which the parser stands. -/
inductive Traced : List Lexeme → Level → List (Level × Opener) → Prop
  | outermost {level : Level} (earlier read : List Lexeme) (h : level.Traced earlier read)
      (hentry : level.entry = []) : Traced (earlier ++ read) level []
  | inside {around : List Lexeme} {parent level : Level} {opener : Opener}
      {outer : List (Level × Opener)} (earlier read : List Lexeme)
      (hparent : Traced around parent outer) (h : level.Traced earlier read)
      (hentry : level.entry = opener.scopeInside parent) :
      Traced (around ++ opener.lexeme :: (earlier ++ read)) level ((parent, opener) :: outer)

theorem Traced.goOn {read more : List Lexeme} {level after : Level} {outer : List (Level × Opener)}
    (h : Traced read level outer) (hentry : after.entry = level.entry)
    (hafter : ∀ earlier stages, level.Traced earlier stages →
      ∃ before last, before ++ last = earlier ++ stages ++ more ∧ after.Traced before last) :
    Traced (read ++ more) after outer := by
  cases h with
  | outermost earlier stages h hstart =>
      obtain ⟨before, last, heq, hafter⟩ := hafter earlier stages h
      rw [← heq]
      exact .outermost before last hafter (hentry.trans hstart)
  | inside earlier stages hparent h hstart =>
      obtain ⟨before, last, heq, hafter⟩ := hafter earlier stages h
      rw [List.append_assoc, List.cons_append, ← heq]
      exact .inside before last hparent hafter (hentry.trans hstart)

theorem Traced.open {read : List Lexeme} {level : Level} {outer : List (Level × Opener)}
    (h : Traced read level outer) (opener : Opener) :
    Traced (read ++ [opener.lexeme]) (level.inside opener) ((level, opener) :: outer) := by
  rw [level.inside_eq_start opener]
  exact .inside [] [] h (.of_start _) rfl

theorem Traced.close {read : List Lexeme} {parent inner completed : Level} {opener : Opener}
    {outer : List (Level × Opener)} (h : Traced read inner ((parent, opener) :: outer))
    (hcomplete : parent.complete opener inner = .ok completed) :
    Traced (read ++ [.close]) completed outer := by
  cases h with
  | inside earlier stages hparent hinner hentry =>
      rw [List.append_assoc]
      refine hparent.goOn (Level.of_complete hcomplete).1 ?_
      intro first second hfirst
      exact ⟨first, _, (List.append_assoc _ _ _).symm, hfirst.complete hinner hentry hcomplete⟩

theorem Traced.step {read : List Lexeme} {a b : Assembly} {place : List Char} {lexeme : Lexeme}
    (h : Traced read a.level a.outer) (hstep : a.step place lexeme = .ok b) :
    Traced (read ++ [lexeme]) b.level b.outer := by
  cases lexeme with
  | stage stage =>
      cases hstep
      refine h.goOn rfl fun first second hlevel => ⟨first, _, (List.append_assoc _ _ _).symm, ?_⟩
      exact hlevel.add stage fun _ hnames => hnames.stage stage
  | bind name =>
      cases hstep
      refine h.goOn rfl fun first second hlevel => ⟨first, _, (List.append_assoc _ _ _).symm, ?_⟩
      exact hlevel.addBinding rfl rfl rfl fun _ hnames => hnames.bind name
  | get name =>
      rw [Assembly.step] at hstep
      split at hstep
      · cases hstep
        refine h.goOn rfl fun first second hlevel => ⟨first, _, (List.append_assoc _ _ _).symm, ?_⟩
        exact hlevel.add (.get name) fun _ hnames => hnames.get name
      · cases hstep
  | openFunction kind text =>
      cases hstep
      exact h.open (.function kind text)
  | openCapture name =>
      cases hstep
      exact h.open (.capture name)
  | comma =>
      cases eq_of_step_comma hstep
      refine h.goOn rfl fun first second hlevel => ⟨_, [], List.append_nil _, ?_⟩
      exact hlevel.nextAlternative
  | close =>
      obtain ⟨parent, opener, houter, hcomplete⟩ := exists_of_step_close hstep
      rw [houter] at h
      exact h.close hcomplete

theorem Traced.reads {before read : List Lexeme} {a b : Assembly} {lexemes left : Lexemes}
    (h : Traced before a.level a.outer) (hreads : Reads a lexemes read b left) :
    Traced (before ++ read) b.level b.outer := by
  induction hreads generalizing before with
  | refl => rwa [List.append_nil]
  | step hstep _ ih =>
      rw [← List.singleton_append, ← List.append_assoc]
      exact ih (h.step hstep)

/-- There is a path to every place, and one on which a name is not bound unless the parser holds it
as bound. -/
theorem Traced.exists_path {read : List Lexeme} {level : Level} {outer : List (Level × Opener)}
    (h : Traced read level outer) :
    (∃ names, TextPath read names) ∧
      ∀ name ∉ level.scope, ∃ names, TextPath read names ∧ name ∉ names := by
  induction h with
  | outermost earlier stages h hentry =>
      constructor
      · obtain ⟨names, hnames⟩ := h.way
        exact ⟨names, .outermost h.isEarlier hnames⟩
      · intro name hname
        obtain ⟨-, names, hnames, hmissing⟩ := h.scope name hname
        exact ⟨names, .outermost h.isEarlier hnames, hmissing⟩
  | @inside _ parent _ opener _ earlier stages hparent h hentry ih =>
      obtain ⟨⟨before, hbefore⟩, hmiss⟩ := ih
      -- `:root` starts from nothing, so what is missed around it does not count
      by_cases hroot : ∃ text, opener = .function .root text
      · obtain ⟨text, rfl⟩ := hroot
        constructor
        · obtain ⟨names, hnames⟩ := h.way
          exact ⟨names, .root text hbefore h.isEarlier hnames⟩
        · intro name hname
          obtain ⟨-, names, hnames, hmissing⟩ := h.scope name hname
          exact ⟨names, .root text hbefore h.isEarlier hnames, hmissing⟩
      · have hopener : ∀ text, opener ≠ .function .root text := not_exists.mp hroot
        constructor
        · obtain ⟨names, hnames⟩ := h.way
          exact ⟨before ++ names, .inside hbefore hopener h.isEarlier hnames⟩
        · intro name hname
          obtain ⟨hstart, names, hnames, hmissing⟩ := h.scope name hname
          rw [hentry, opener.scopeInside_eq hopener] at hstart
          obtain ⟨around, haround, hunbound⟩ := hmiss name hstart
          refine ⟨around ++ names, .inside haround hopener h.isEarlier hnames, ?_⟩
          rw [List.mem_append, not_or]
          exact ⟨hunbound, hmissing⟩

/-- A name is held as bound at a place exactly if every path to the place binds it. -/
theorem mem_scope_iff {a : Assembly} {lexemes left : Lexemes} {read : List Lexeme}
    (h : Reads start lexemes read a left) {name : String} :
    name ∈ a.level.scope ↔ ∀ names, TextPath read names → name ∈ names := by
  constructor
  · intro hname names hpath
    exact mem_of_reads_path hpath h hname
  · intro hpaths
    by_contra hname
    have htraced : Traced [] start.level start.outer := .outermost [] [] (.of_start []) rfl
    obtain ⟨names, hpath, hmissing⟩ := (htraced.reads h).exists_path.2 name hname
    exact hmissing (hpaths names hpath)

end Assembly

end SchemaQuery

import SchemaQuery.Selector.Basic
import SchemaQuery.Selector.Error
import SchemaQuery.Text.Character

/-!
Lexemes of selector texts.

A lexeme is a stage without arguments of its own, the opening of a stage with arguments, a comma or
a closing parenthesis. Blanks and comments may stand between lexemes. Every reader takes the
characters that are left and gives back what it leaves.
-/
namespace SchemaQuery

inductive Lexeme where
  | stage (stage : Stage)
  | bind (name : String)
  | get (name : String)
  | openFunction (kind : FunctionKind) (name : String)
  | openCapture (name : String)
  | comma
  | close
deriving Inhabited

/-- A refusal in terms of the characters left at its place. -/
inductive Fault where
  | flaw (flaw : SyntaxFlaw) (place : List Char)
  | reference (e : ReferenceError)
deriving DecidableEq, Repr

/-- What a reader has read and what it leaves, or why it cannot read. -/
abbrev Reading (α : Type) := Except Fault (α × List Char)

namespace Lexeme

/-- Drops blanks and comments. A comment starts with two slashes and ends with its line. -/
def skipBlank (inComment : Bool) : List Char → List Char
  | [] => []
  | c :: rest =>
    if inComment then skipBlank (c ≠ '\n') rest
    else if isBlank c then skipBlank false rest
    else if c = '/' ∧ rest.head? = some '/' then skipBlank true rest
    else c :: rest

def skip (cs : List Char) : List Char :=
  skipBlank false cs

def expect (text : String) (cs : List Char) : Except Fault (List Char) :=
  if text.toList.isPrefixOf cs then
    .ok (cs.drop text.length)
  else
    .error (.flaw (.expected text) cs)

def identifier (cs : List Char) : Reading String :=
  match cs with
  | [] => .error (.flaw .identifierExpected cs)
  | c :: _ =>
    if c.isAlpha ∨ c = '_' then
      .ok (.ofList (cs.takeWhile ShapeId.isIdentifierChar),
        cs.dropWhile ShapeId.isIdentifierChar)
    else
      .error (.flaw .identifierExpected cs)

/-- Reads a text up to the closing quote. A backslash stands before a character that is meant as
itself. `start` is the place of the opening quote. -/
def quotedBody (start : List Char) (quote : Char) (read : List Char) : List Char → Reading String
  | [] => .error (.flaw .unterminatedText start)
  | ['\\'] => .error (.flaw .unterminatedEscape [])
  | '\\' :: c :: rest => quotedBody start quote (c :: read) rest
  | c :: rest =>
    if c = quote then .ok (.ofList read.reverse, rest) else quotedBody start quote (c :: read) rest

def isQuote (c : Char) : Bool :=
  c = '"' || c = '\''

def isBare (c : Char) : Bool :=
  !isBlank c && c ≠ ',' && c ≠ ']'

/-- Reads a value: quoted, or as far as a blank, a comma or a closing bracket. -/
def value (cs : List Char) : Reading String :=
  match cs with
  | [] => .error (.flaw .valueExpected cs)
  | c :: rest =>
    if isQuote c then quotedBody cs c [] rest
    else if isBare c then .ok (.ofList (cs.takeWhile isBare), cs.dropWhile isBare)
    else .error (.flaw .valueExpected cs)

def segment (cs : List Char) : Reading PathSegment :=
  match cs with
  | [] => .error (.flaw .segmentExpected cs)
  | c :: rest =>
    if c = '(' then
      if "(keys)".toList.isPrefixOf cs then .ok (.keys, cs.drop 6)
      else if "(values)".toList.isPrefixOf cs then .ok (.values, cs.drop 8)
      else if "(length)".toList.isPrefixOf cs then .ok (.length, cs.drop 8)
      else .error (.flaw .segmentFunctionExpected cs)
    else if isQuote c then
      (quotedBody cs c [] rest).map fun (text, rest) => (.key text, rest)
    else if ShapeId.isIdentifierChar c then
      .ok (.key (.ofList (cs.takeWhile ShapeId.isIdentifierChar)),
        cs.dropWhile ShapeId.isIdentifierChar)
    else
      .error (.flaw .segmentExpected cs)

theorem length_skipBlank (inComment : Bool) (cs : List Char) :
    (skipBlank inComment cs).length ≤ cs.length := by
  induction cs generalizing inComment with
  | nil => simp [skipBlank]
  | cons c rest ih =>
    unfold skipBlank
    have hcomment := ih (c ≠ '\n')
    have hblank := ih false
    have hslash := ih true
    split
    · simp only [List.length_cons]
      omega
    · split
      · simp only [List.length_cons]
        omega
      · split
        · simp only [List.length_cons]
          omega
        · simp

theorem length_skip (cs : List Char) : (skip cs).length ≤ cs.length :=
  length_skipBlank false cs

grind_pattern length_skip => skip cs

theorem length_dropWhile_lt {p : Char → Bool} {c : Char} {rest : List Char} (h : p c) :
    ((c :: rest).dropWhile p).length < (c :: rest).length := by
  simp only [List.dropWhile_cons, h, if_true, List.length_cons]
  exact Nat.lt_succ_of_le (List.dropWhile_suffix p).length_le

theorem length_of_identifier {cs rest : List Char} {name : String}
    (h : identifier cs = .ok (name, rest)) : rest.length < cs.length := by
  unfold identifier at h
  split at h
  · simp at h
  · next c tail =>
    split at h
    · next hc =>
      have hchar : ShapeId.isIdentifierChar c := by
        rcases hc with hc | rfl
        · simp [ShapeId.isIdentifierChar, Char.isAlphanum, hc]
        · decide
      simp only [Except.ok.injEq, Prod.mk.injEq] at h
      exact h.2 ▸ length_dropWhile_lt hchar
    · simp at h

theorem length_of_quotedBody {start : List Char} {quote : Char} {read cs rest : List Char}
    {text : String} (h : quotedBody start quote read cs = .ok (text, rest)) :
    rest.length < cs.length := by
  fun_induction quotedBody start quote read cs with
  | case1 => simp at h
  | case2 => simp at h
  | case3 read c tail ih =>
    have := ih h
    simp only [List.length_cons]
    omega
  | case4 =>
    simp only [Except.ok.injEq, Prod.mk.injEq] at h
    simp [h.2]
  | case5 =>
    next ih =>
    have := ih h
    simp only [List.length_cons]
    omega

theorem length_of_value {cs rest : List Char} {text : String}
    (h : value cs = .ok (text, rest)) : rest.length < cs.length := by
  unfold value at h
  split at h
  · simp at h
  · next c tail =>
    split at h
    · exact Nat.lt_succ_of_lt (length_of_quotedBody h)
    · split at h
      · next hc =>
        simp only [Except.ok.injEq, Prod.mk.injEq] at h
        exact h.2 ▸ length_dropWhile_lt hc
      · simp at h

theorem length_of_segment {cs rest : List Char} {s : PathSegment}
    (h : segment cs = .ok (s, rest)) : rest.length < cs.length := by
  unfold segment at h
  split at h
  · simp at h
  · next c tail =>
    split at h
    · split at h
      · simp only [Except.ok.injEq, Prod.mk.injEq] at h
        simp only [← h.2, List.length_drop, List.length_cons]
        omega
      · split at h
        · simp only [Except.ok.injEq, Prod.mk.injEq] at h
          simp only [← h.2, List.length_drop, List.length_cons]
          omega
        · split at h
          · simp only [Except.ok.injEq, Prod.mk.injEq] at h
            simp only [← h.2, List.length_drop, List.length_cons]
            omega
          · simp at h
    · split at h
      · cases hq : quotedBody (c :: tail) c [] tail with
        | error e => simp [hq, Except.map] at h
        | ok r =>
          simp only [hq, Except.map, Except.ok.injEq, Prod.mk.injEq] at h
          exact h.2 ▸ Nat.lt_succ_of_lt (length_of_quotedBody hq)
      · split at h
        · next hc =>
          simp only [Except.ok.injEq, Prod.mk.injEq] at h
          exact h.2 ▸ length_dropWhile_lt hc
        · simp at h

/-- Reads items between commas, with blanks before and after each. What is left does not start with
a blank. -/
def commaList {α : Type} (item : List Char → Reading α)
    (shorter : ∀ {cs rest : List Char} {a : α}, item cs = .ok (a, rest) → rest.length < cs.length)
    (cs : List Char) : Reading (List α) :=
  match _hitem : item (skip cs) with
  | .error e => .error e
  | .ok (a, rest) =>
    match _hnext : skip rest with
    | ',' :: next => (commaList item shorter next).map fun (as, left) => (a :: as, left)
    | left => .ok ([a], left)
termination_by cs.length
decreasing_by
  have hitem := shorter ‹item (skip cs) = .ok (a, rest)›
  have hbefore := length_skip cs
  have hafter := length_skip rest
  rw [‹skip rest = ',' :: next›, List.length_cons] at hafter
  omega

def label (cs : List Char) : Reading RelationshipType :=
  match identifier cs with
  | .error e => .error e
  | .ok (name, rest) =>
    match RelationshipType.ofLabel? name with
    | none => .error (.reference (.unknownRelationship name))
    | some type => .ok (type, rest)

theorem length_of_label {cs rest : List Char} {type : RelationshipType}
    (h : label cs = .ok (type, rest)) : rest.length < cs.length := by
  unfold label at h
  split at h
  · simp at h
  · next hname =>
    split at h
    · simp at h
    · simp only [Except.ok.injEq, Prod.mk.injEq] at h
      exact h.2 ▸ length_of_identifier hname

def labels (cs : List Char) : Reading (List RelationshipType) :=
  (commaList label length_of_label cs).map fun (labels, rest) => (labels.eraseDups, rest)

def values (cs : List Char) : Reading (List String) :=
  commaList value length_of_value cs

def path (cs : List Char) : Reading (List PathSegment) :=
  match cs with
  | '|' :: tail =>
    match _h : segment tail with
    | .error e => .error e
    | .ok (s, rest) => (path rest).map fun (path, left) => (s :: path, left)
  | cs => .ok ([], cs)
termination_by cs.length
decreasing_by exact Nat.lt_succ_of_lt (length_of_segment ‹segment tail = .ok (s, rest)›)

def isTraitIdChar (c : Char) : Bool :=
  c.isAlphanum || c = '_' || c = '.' || c = '#' || c = '$'

/-- Reads a trait id and the path after it. Ids without a namespace belong to the prelude. -/
def traitKey (cs : List Char) : Reading AttributeKey :=
  match expect "|" cs with
  | .error e => .error e
  | .ok cs =>
    let text := String.ofList (cs.takeWhile isTraitIdChar)
    match ShapeId.parseRelative text ShapeId.preludeNamespace with
    | .error e =>
      .error (.flaw (if text = "" then .traitIdExpected else .badTraitId e) cs)
    | .ok id =>
      (path (cs.dropWhile isTraitIdChar)).map fun (path, rest) => (.trait id path, rest)

def keyPart (whole : AttributeKey) (name : String) (parts : List (String × AttributeKey))
    (cs : List Char) : Reading AttributeKey :=
  match cs with
  | '|' :: rest =>
    match identifier rest with
    | .error e => .error e
    | .ok (part, rest) =>
      match parts.lookup part with
      | some key => .ok (key, rest)
      | none => .error (.reference (.unknownAttribute (name ++ "|" ++ part)))
  | cs => .ok (whole, cs)

def key (cs : List Char) : Reading AttributeKey :=
  match identifier cs with
  | .error e => .error e
  | .ok (name, rest) =>
    if name = "id" then
      keyPart .id name
        [("namespace", .idNamespace), ("name", .idName), ("member", .idMember)] rest
    else if name = "service" then
      keyPart .service name [("version", .serviceVersion)] rest
    else if name = "trait" then
      traitKey rest
    else
      .error (.reference (.unknownAttribute name))

/-- Reads a comparator; of two that fit the longer one. -/
def comparator (cs : List Char) : Reading Comparator :=
  match Comparator.all.find? fun c => c.symbol.toList.isPrefixOf cs with
  | some c => .ok (c, cs.drop c.symbol.length)
  | none => .error (.flaw .comparatorExpected cs)

/-- Reads the end of an attribute filter, with an `i` in front if letter case does not matter. -/
def filterEnd (cs : List Char) : Reading Bool :=
  match cs with
  | 'i' :: rest => (expect "]" (skip rest)).map fun rest => (true, rest)
  | cs => (expect "]" cs).map fun rest => (false, rest)

def comparison (cs : List Char) : Reading Comparison :=
  match comparator cs with
  | .error e => .error e
  | .ok (comparator, rest) =>
    match values rest with
    | .error e => .error e
    | .ok (values, rest) =>
      (filterEnd rest).map fun (ignoreCase, rest) => (⟨comparator, values, ignoreCase⟩, rest)

def attributeFilter (cs : List Char) : Reading AttributeFilter :=
  match key (skip cs) with
  | .error e => .error e
  | .ok (key, rest) =>
    match skip rest with
    | ']' :: rest => .ok (⟨key, none⟩, rest)
    | rest => (comparison rest).map fun (c, rest) => (⟨key, some c⟩, rest)

def arrow (direction : Direction) (ending : String) (cs : List Char) : Reading Lexeme :=
  match labels cs with
  | .error e => .error e
  | .ok (labels, rest) =>
    (expect ending rest).map fun rest => (.stage (.neighbor ⟨direction, some labels⟩), rest)

def function (cs : List Char) : Reading Lexeme :=
  match identifier cs with
  | .error e => .error e
  | .ok (name, rest) =>
    match FunctionKind.ofName? name with
    | none => .error (.reference (.unknownFunction name))
    | some kind => (expect "(" (skip rest)).map fun rest => (.openFunction kind name, rest)

def variableUse (cs : List Char) : Reading Lexeme :=
  match cs with
  | '\x7b' :: rest =>
    match identifier rest with
    | .error e => .error e
    | .ok (name, rest) => (expect "\x7d" rest).map fun rest => (.get name, rest)
  | cs =>
    match identifier cs with
    | .error e => .error e
    | .ok (name, '(' :: rest) => .ok (.openCapture name, rest)
    | .ok (name, rest) => .ok (.bind name, rest)

def typeName (cs : List Char) : Reading Lexeme :=
  match identifier cs with
  | .error e => .error e
  | .ok (name, rest) =>
    match TypeFilter.ofName? name with
    | none => .error (.reference (.unknownShapeType name))
    | some filter => .ok (.stage (.type filter), rest)

def stageAt (c : Char) (rest : List Char) : Reading Lexeme :=
  if c = '*' then
    .ok (.stage (.type .any), rest)
  else if c = '[' then
    (attributeFilter rest).map fun (filter, rest) => (.stage (.attribute filter), rest)
  else if c = '>' then
    .ok (.stage (.neighbor ⟨.forward, none⟩), rest)
  else if c = '~' then
    (expect "~>" (c :: rest)).map fun rest => (.stage (.neighbor ⟨.recursive, none⟩), rest)
  else if c = '-' then
    match expect "-[" (c :: rest) with
    | .error e => .error e
    | .ok rest => arrow .forward "]->" rest
  else if c = '<' then
    match rest with
    | '-' :: '[' :: rest => arrow .reverse "]-" rest
    | rest => .ok (.stage (.neighbor ⟨.reverse, none⟩), rest)
  else if c.isAlpha then
    typeName (c :: rest)
  else
    .error (.flaw (.unexpected c) (c :: rest))

def readAt (c : Char) (rest : List Char) : Reading Lexeme :=
  if c = ',' then .ok (.comma, rest)
  else if c = ')' then .ok (.close, rest)
  else if c = ':' then function rest
  else if c = '$' then variableUse rest
  else stageAt c rest

end Lexeme

end SchemaQuery

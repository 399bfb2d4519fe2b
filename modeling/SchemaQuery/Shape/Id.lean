import SchemaQuery.Sorted

namespace SchemaQuery

open Std

structure ShapeId where
  namespaceName : String
  name : String
  member : Option String
deriving DecidableEq, Inhabited, Repr

inductive ShapeId.Flaw where
  | missingSeparator
  | badNamespace
  | badName
  | badMember
deriving DecidableEq, Repr

/-- A text that is no shape id, with the first flaw found. -/
structure ShapeId.Malformed where
  input : String
  flaw : ShapeId.Flaw
deriving DecidableEq, Repr

namespace ShapeId

def Flaw.message : Flaw → String
  | missingSeparator => "missing `#` separator"
  | badNamespace => "invalid namespace"
  | badName => "invalid shape name"
  | badMember => "invalid member name"

def Malformed.message (e : Malformed) : String :=
  "Invalid shape id `" ++ e.input ++ "`: " ++ e.flaw.message

instance : Ord ShapeId where
  compare := compareLex (compareOn namespaceName)
    (compareLex (compareOn name) (compareOn member))

instance : TransOrd ShapeId :=
  inferInstanceAs (TransCmp (compareLex (compareOn namespaceName)
    (compareLex (compareOn name) (compareOn member))))

instance : LawfulEqOrd ShapeId where
  compare_self := ReflCmp.compare_self
  eq_of_compare {a b} h := by
    have h : ((compare a.namespaceName b.namespaceName).then
        ((compare a.name b.name).then (compare a.member b.member))) = .eq := h
    obtain ⟨hns, h⟩ := Ordering.then_eq_eq.mp h
    obtain ⟨hname, hmember⟩ := Ordering.then_eq_eq.mp h
    have hns := LawfulEqCmp.eq_of_compare hns
    have hname := LawfulEqCmp.eq_of_compare hname
    have hmember := LawfulEqCmp.eq_of_compare hmember
    cases a
    cases b
    simp_all

def text (id : ShapeId) : String :=
  match id.member with
  | none => id.namespaceName ++ "#" ++ id.name
  | some member => id.namespaceName ++ "#" ++ id.name ++ "$" ++ member

instance : ToString ShapeId := ⟨text⟩

def isIdentifierChar (c : Char) : Bool :=
  c.isAlphanum || c == '_'

/-- An identifier starts with an ASCII letter or an underscore and has at least one letter or
digit. -/
def isIdentifier (cs : List Char) : Bool :=
  match cs with
  | [] => false
  | c :: _ => !c.isDigit && cs.all isIdentifierChar && cs.any Char.isAlphanum

/-- The pieces between the separators; there is always at least one. -/
def pieces (separator : Char) : List Char → List (List Char)
  | [] => [[]]
  | c :: rest =>
    if c = separator then
      [] :: pieces separator rest
    else
      match pieces separator rest with
      | [] => [[c]]
      | piece :: others => (c :: piece) :: others

def isNamespace (cs : List Char) : Bool :=
  (pieces '.' cs).all isIdentifier

def cut (separator : Char) (cs : List Char) : Option (List Char × List Char) :=
  match cs.dropWhile (· ≠ separator) with
  | [] => none
  | _ :: rest => some (cs.takeWhile (· ≠ separator), rest)

/-- Reads an absolute id; the first flaw from the left is reported. -/
def parse (input : String) : Except Malformed ShapeId :=
  match cut '#' input.toList with
  | none => .error ⟨input, .missingSeparator⟩
  | some (space, rest) =>
    if !isNamespace space then
      .error ⟨input, .badNamespace⟩
    else
      match cut '$' rest with
      | none =>
        if !isIdentifier rest then
          .error ⟨input, .badName⟩
        else
          .ok ⟨.ofList space, .ofList rest, none⟩
      | some (name, member) =>
        if !isIdentifier name then
          .error ⟨input, .badName⟩
        else if !isIdentifier member then
          .error ⟨input, .badMember⟩
        else
          .ok ⟨.ofList space, .ofList name, some (.ofList member)⟩

def ofParts (space name : String) : Except Malformed ShapeId :=
  if !isNamespace space.toList then
    .error ⟨space ++ "#" ++ name, .badNamespace⟩
  else if !isIdentifier name.toList then
    .error ⟨space ++ "#" ++ name, .badName⟩
  else
    .ok ⟨space, name, none⟩

/-- Reads an id that may leave out its namespace. -/
def parseRelative (input defaultNamespace : String) : Except Malformed ShapeId :=
  if input.toList.contains '#' then
    parse input
  else
    parse (defaultNamespace ++ "#" ++ input)

/-- The id of the shape that a member belongs to; other ids stay. -/
def container (id : ShapeId) : ShapeId :=
  { id with member := none }

@[simp] theorem container_container (id : ShapeId) : id.container.container = id.container := rfl

theorem container_eq_self {id : ShapeId} (h : id.member = none) : id.container = id := by
  rw [container, ← h]

/-- The id of a member of this shape, or of this member's shape. -/
def withMember (id : ShapeId) (member : String) : Except Malformed ShapeId :=
  if !isIdentifier member.toList then
    .error ⟨id.container.text ++ "$" ++ member, .badMember⟩
  else
    .ok { id with member := some member }

def hasMember (id : ShapeId) : Bool :=
  id.member.isSome

def preludeNamespace : String := "smithy.api"

def prelude (name : String) : ShapeId :=
  ⟨preludeNamespace, name, none⟩

def traitMarker : ShapeId := prelude "trait"

def mixinMarker : ShapeId := prelude "mixin"

end ShapeId

abbrev IdSet := SortedSet ShapeId

end SchemaQuery
